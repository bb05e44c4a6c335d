import KserveClient.HttpClient

/-!
# KserveClient.Sockets — the connection down to its system calls

`connect` looks the host up, tries its addresses one by one and, for `https`, makes a TLS session on the
socket; the destructors close what was opened.  Here each function also says which calls to the system
and to OpenSSL it makes (`SysCall`); what those calls return is the environment's choice (`SocketIo`).
A descriptor or an OpenSSL object is the number that the call returned.

* `roundTrip_refines`: without its calls, an attempt is the `roundTrip` of the transport level, with the
  exception of `connect` that the calls lead to.
* `sendRequest_refines`: so is an operation with all its attempts.
-/

namespace KserveClient

namespace Sockets

/-! ### Calls -/

/-- `struct timeval` -/
structure Timeval where
  sec : ℤ
  usec : ℤ
deriving DecidableEq

/-- The certificates that a server is verified against. -/
inductive Roots where
  | file (path : Bytes)
  | system
deriving DecidableEq

/-- A connection with what it owns. -/
inductive Transport where
  | plain (fd : ℕ)
  | tls (fd ctx ssl : ℕ)
deriving DecidableEq

def Transport.kind : Transport → Connection
  | plain _ => .plain
  | tls .. => .tls

def Transport.fd : Transport → ℕ
  | plain fd => fd
  | tls fd .. => fd

/-- A call to the system or to OpenSSL, with what matters of its result. -/
inductive SysCall where
  | getaddrinfo (host service : Bytes) (list : Option ℕ)
  | freeaddrinfo (list : ℕ)
  | socket (fd : Option ℕ)
  | setReceiveTimeout (fd : ℕ) (timeout : Timeval)
  | setSendTimeout (fd : ℕ) (timeout : Timeval)
  /-- to an address of the list -/
  | connect (fd list : ℕ) (succeeds : Bool)
  | close (fd : ℕ)
  | sslCtxNew (ctx : Option ℕ)
  /-- TLS 1.2 -/
  | sslCtxSetMinProtoVersion (ctx : ℕ)
  /-- `SSL_VERIFY_PEER` -/
  | sslCtxSetVerify (ctx : ℕ)
  | sslCtxLoadRoots (ctx : ℕ) (roots : Roots) (succeeds : Bool)
  | sslCtxFree (ctx : ℕ)
  | sslNew (ctx : ℕ) (ssl : Option ℕ)
  | sslSetFd (ssl fd : ℕ)
  | sslSetHostName (ssl : ℕ) (host : Bytes)
  | sslSetExpectedHost (ssl : ℕ) (host : Bytes) (succeeds : Bool)
  | sslConnect (ssl fd : ℕ) (succeeds : Bool)
  | sslShutdown (ssl fd : ℕ)
  | sslFree (ssl : ℕ)
  /-- `::send` or `SSL_write` from an offset in the request, with the bytes it accepts -/
  | send (transport : Transport) (offset : ℕ) (accepted : Bytes)
  /-- `::recv` or `SSL_read` -/
  | recv (transport : Transport)
deriving DecidableEq

/-! ### The environment -/

/-- What `::socket` and `::connect` return for one address. -/
structure AddressIo where
  socket : Option ℕ
  connects : Bool

/-- What `::getaddrinfo` returns: the text of `gai_strerror`, or a list of addresses. -/
inductive Lookup where
  | fails (message : Bytes)
  | finds (list : ℕ) (addresses : List AddressIo)

/-- What OpenSSL returns while a session is set up. -/
structure TlsIo where
  ctx : Option ℕ
  rootsLoaded : Bool
  ssl : Option ℕ
  hostSet : Bool
  handshake : Bool
  /-- the text of `ERR_get_error`, if there is one -/
  error : Option Bytes

/-- What the environment does in one attempt. -/
structure SocketIo where
  lookup : Lookup
  tls : TlsIo
  sends : List ℤ
  recvs : List Recv

/-- What the build, the process environment and the client fix. -/
structure Setup where
  /-- `KSERVE_CLIENT_WITH_TLS` -/
  withTls : Bool
  /-- `KSERVE_CA_CERT` -/
  caCert : Option Bytes
  timeoutMs : ℤ

/-! ### Sockets -/

def timeval (timeoutMs : ℤ) : Timeval := ⟨timeoutMs.tdiv 1000, timeoutMs.tmod 1000 * 1000⟩

def setTimeout (fd : ℕ) (timeoutMs : ℤ) : List SysCall :=
  [.setReceiveTimeout fd (timeval timeoutMs), .setSendTimeout fd (timeval timeoutMs)]

/-- The loop of `connectSocket` over the addresses. -/
def tryAddresses (list : ℕ) (timeoutMs : ℤ) : List AddressIo → Option ℕ × List SysCall
  | [] => (none, [])
  | address :: rest =>
    match address.socket with
    | none =>
      let (result, calls) := tryAddresses list timeoutMs rest
      (result, .socket none :: calls)
    | some fd =>
      let opening := .socket (some fd) :: setTimeout fd timeoutMs ++ [.connect fd list address.connects]
      if address.connects then (some fd, opening)
      else
        let (result, calls) := tryAddresses list timeoutMs rest
        (result, opening ++ .close fd :: calls)

def connectSocket (host : Bytes) (port timeoutMs : ℤ) : Lookup → Except Exn ℕ × List SysCall
  | .fails message =>
    (.error (.runtimeError (str "host resolution failed: " ++ host ++ str ": " ++ message)),
      [.getaddrinfo host (toText port) none])
  | .finds list addresses =>
    let (result, calls) := tryAddresses list timeoutMs addresses
    (match result with
      | some fd => .ok fd
      | none => .error (.runtimeError (str "connect failed to " ++ host ++ str ":" ++ toText port)),
    .getaddrinfo host (toText port) (some list) :: calls ++ [.freeaddrinfo list])

/-! ### TLS -/

/-- `KSERVE_CA_CERT` when it is set and not empty, else the system's roots. -/
def trustedRoots (caCert : Option Bytes) : Roots :=
  match caCert with
  | some path => if path = [] then .system else .file path
  | none => .system

/-- `TlsConnection::cleanup`, with the null pointers as `none`. -/
def cleanup (fd : ℕ) (ctx ssl : Option ℕ) : List SysCall :=
  (match ssl with
    | some ssl => [.sslShutdown ssl fd, .sslFree ssl]
    | none => []) ++
  (match ctx with
    | some ctx => [.sslCtxFree ctx]
    | none => []) ++ [.close fd]

/-- `TlsConnection::fail`: the calls so far, the clean-up, and the exception. -/
def fail (calls : List SysCall) (fd : ℕ) (ctx ssl : Option ℕ) (what : Bytes) (error : Option Bytes) :
    Except Exn Transport × List SysCall :=
  (.error (.runtimeError (str "KServe TLS: " ++ what ++ match error with
    | some text => str ": " ++ text
    | none => [])), calls ++ cleanup fd ctx ssl)

/-- The constructor of `TlsConnection`. -/
def tlsConnection (fd : ℕ) (host : Bytes) (caCert : Option Bytes) (io : TlsIo) :
    Except Exn Transport × List SysCall :=
  match io.ctx with
  | none => fail [.sslCtxNew none] fd none none (str "SSL_CTX_new failed") io.error
  | some ctx =>
    let roots := trustedRoots caCert
    let calls := [.sslCtxNew (some ctx), .sslCtxSetMinProtoVersion ctx, .sslCtxSetVerify ctx,
      .sslCtxLoadRoots ctx roots io.rootsLoaded]
    if !io.rootsLoaded then
      fail calls fd (some ctx) none (match roots with
        | .file _ => str "failed to load CA file named by KSERVE_CA_CERT"
        | .system => str "failed to load system CA roots") io.error
    else
      match io.ssl with
      | none => fail (calls ++ [.sslNew ctx none]) fd (some ctx) none (str "SSL_new failed") io.error
      | some ssl =>
        let calls := calls ++ [.sslNew ctx (some ssl), .sslSetFd ssl fd, .sslSetHostName ssl host,
          .sslSetExpectedHost ssl host io.hostSet]
        if !io.hostSet then
          fail calls fd (some ctx) (some ssl) (str "failed to set expected TLS hostname") io.error
        else
          let calls := calls ++ [.sslConnect ssl fd io.handshake]
          if !io.handshake then
            fail calls fd (some ctx) (some ssl) (str "TLS handshake failed") io.error
          else (.ok (.tls fd ctx ssl), calls)

/-- The destructors of the two connections. -/
def Transport.destroy : Transport → List SysCall
  | plain fd => [.close fd]
  | tls fd ctx ssl => cleanup fd (some ctx) (some ssl)

def connect (setup : Setup) (ep : Endpoint) (io : SocketIo) : Except Exn Transport × List SysCall :=
  let (result, calls) := connectSocket ep.host ep.port setup.timeoutMs io.lookup
  match result with
  | .error e => (.error e, calls)
  | .ok fd =>
    if ep.tls then
      if setup.withTls then
        let (transport, more) := tlsConnection fd ep.host setup.caCert io.tls
        (transport, calls ++ more)
      else
        (.error (.runtimeError (str "KServe https:// endpoint requested but the client was built without "
          ++ str "TLS support (rebuild with OpenSSL / -DKSERVE_CLIENT_ENABLE_TLS=ON)")),
          calls ++ [.close fd])
    else (.ok (.plain fd), calls)

/-! ### The holder -/

/-- `HttpConnection`, with the transport it owns. -/
structure Holder where
  transport : Option Transport
  host : Bytes
  port : ℤ
  tls : Bool
deriving DecidableEq

/-- A new holder, or one that was dropped. -/
def Holder.empty : Holder := ⟨none, [], 0, false⟩

/-- The destructor runs for the transport, if there is one. -/
def Holder.drop (holder : Holder) : List SysCall × Holder :=
  (match holder.transport with
    | some transport => transport.destroy
    | none => [], .empty)

def reconnect (holder : Holder) (setup : Setup) (ep : Endpoint) (io : SocketIo) :
    Except Exn Transport × Holder × List SysCall :=
  let (closing, dropped) := holder.drop
  let (result, calls) := connect setup ep io
  match result with
  | .ok transport => (.ok transport, ⟨some transport, ep.host, ep.port, ep.tls⟩, closing ++ calls)
  | .error e => (.error e, dropped, closing ++ calls)

def ensureConnected (holder : Holder) (setup : Setup) (ep : Endpoint) (io : SocketIo) :
    Except Exn Transport × Holder × List SysCall :=
  match holder.transport with
  | some transport =>
    if holder.host = ep.host ∧ holder.port = ep.port ∧ holder.tls = ep.tls then (.ok transport, holder, [])
    else reconnect holder setup ep io
  | none => reconnect holder setup ep io

/-! ### One attempt -/

/-- The calls of `sendAll` with `sent` bytes sent, when they return the numbers `accepted`. -/
def sendCalls (transport : Transport) (request : Bytes) : List ℤ → ℕ → List SysCall
  | [], sent => if sent < request.length then [.send transport sent []] else []
  | n :: accepted, sent =>
    if sent < request.length then
      .send transport sent ((request.drop sent).take n.toNat) ::
        if n ≤ 0 then [] else sendCalls transport request accepted (sent + n.toNat)
    else []

/-- What becomes of the holder: dropped on every exception, and when the connection is to be closed. -/
def Holder.after (holder : Holder) : Outcome (HttpResponse × Bool) → List SysCall × Holder
  | .ok (_, close) => if close then holder.drop else ([], holder)
  | .throws _ => holder.drop
  | _ => ([], holder)

/-- One attempt: the response, the holder after it, and the calls made. -/
def roundTrip (holder : Holder) (setup : Setup) (ep : Endpoint) (request : Bytes) (io : SocketIo) :
    Outcome HttpResponse × Holder × List SysCall :=
  let (transport, holder, opening) := ensureConnected holder setup ep io
  match transport with
  | .error e =>
    let (closing, holder) := holder.drop
    (.throws e, holder, opening ++ closing)
  | .ok transport =>
    let (result, unread) := exchange transport.kind request io.sends io.recvs
    let (closing, holder) := holder.after result
    (Prod.fst <$> result, holder, opening ++ sendCalls transport request io.sends 0 ++
      List.replicate (io.recvs.length - unread.length) (.recv transport) ++ closing)

/-! ### The transport level -/

/-- The holder without what its transport owns. -/
def Holder.kind (holder : Holder) : HttpConnection :=
  ⟨holder.transport.map Transport.kind, holder.host, holder.port, holder.tls⟩

/-- The exception of `connect`, if it throws. -/
def connectError (setup : Setup) (ep : Endpoint) (io : SocketIo) : Option Exn :=
  match (connect setup ep io).1 with
  | .ok _ => none
  | .error e => some e

/-- What the transport level sees of an attempt. -/
def SocketIo.attempt (io : SocketIo) (setup : Setup) (ep : Endpoint) : AttemptIo :=
  ⟨connectError setup ep io, io.sends, io.recvs⟩

@[simp] theorem kind_empty : Holder.empty.kind = ⟨none, [], 0, false⟩ := rfl

@[simp] theorem kind_drop (holder : Holder) : holder.drop.2.kind = holder.kind.drop := rfl

section Refinement

variable {holder : Holder} {setup : Setup} {ep : Endpoint} {request : Bytes} {io : SocketIo}

theorem tlsConnection_kind {fd : ℕ} {host : Bytes} {caCert : Option Bytes} {io : TlsIo}
    {transport : Transport} (h : (tlsConnection fd host caCert io).1 = .ok transport) :
    transport.kind = .tls := by
  unfold tlsConnection at h
  cases hctx : io.ctx with
  | none =>
    rw [hctx] at h
    cases h
  | some ctx =>
    rw [hctx] at h
    cases hssl : io.ssl with
    | none =>
      rw [hssl] at h
      dsimp only at h
      split_ifs at h with hroots
      · cases h
      · cases h
    | some ssl =>
      rw [hssl] at h
      dsimp only at h
      split_ifs at h with hroots hhost hshake
      · cases h
      · cases h
      · cases h
      · cases h
        rfl

/-- The transport of a new connection is the one that the endpoint asks for. -/
theorem connect_kind {transport : Transport} (h : (connect setup ep io).1 = .ok transport) :
    transport.kind = if ep.tls then .tls else .plain := by
  unfold connect at h
  rcases hsocket : connectSocket ep.host ep.port setup.timeoutMs io.lookup with ⟨result, calls⟩
  rw [hsocket] at h
  cases result with
  | error e => cases h
  | ok fd =>
    dsimp only at h
    split_ifs at h with htls hbuild
    · rw [if_pos htls]
      exact tlsConnection_kind h
    · rw [if_neg htls]
      cases h
      rfl

/-- `reconnect` at the transport level. -/
theorem reconnect_refines (holder : Holder) (setup : Setup) (ep : Endpoint) (io : SocketIo) :
    KserveClient.reconnect holder.kind ep (connectError setup ep io) =
      ((match (reconnect holder setup ep io).1 with
        | .ok transport => .ok transport.kind
        | .error e => .throws e), (reconnect holder setup ep io).2.1.kind) := by
  unfold KserveClient.reconnect reconnect connectError
  rcases hconnect : connect setup ep io with ⟨result, calls⟩
  cases result with
  | ok transport =>
    have hkind : transport.kind = if ep.tls then .tls else .plain := by
      apply connect_kind
      rw [hconnect]
    simp only [hkind]
    show (_, _) = (_, _)
    rw [Holder.kind, Option.map_some, hkind]
  | error e => rfl

theorem ensureConnected_refines (holder : Holder) (setup : Setup) (ep : Endpoint) (io : SocketIo) :
    KserveClient.ensureConnected holder.kind ep (connectError setup ep io) =
      ((match (ensureConnected holder setup ep io).1 with
        | .ok transport => .ok transport.kind
        | .error e => .throws e), (ensureConnected holder setup ep io).2.1.kind) := by
  unfold KserveClient.ensureConnected ensureConnected
  cases htransport : holder.transport with
  | none =>
    simp only [Holder.kind, htransport, Option.map_none]
    have hreconnect := reconnect_refines holder setup ep io
    rw [Holder.kind, htransport] at hreconnect
    exact hreconnect
  | some transport =>
    simp only [Holder.kind, htransport, Option.map_some]
    split_ifs with hsame
    · simp only [htransport, Option.map_some]
    · have hreconnect := reconnect_refines holder setup ep io
      rw [Holder.kind, htransport] at hreconnect
      exact hreconnect

theorem after_refines (holder : Holder) (result : Outcome (HttpResponse × Bool)) :
    (holder.after result).2.kind = holder.kind.after result := by
  cases result with
  | ok response =>
    unfold Holder.after HttpConnection.after
    obtain ⟨response, close⟩ := response
    cases close <;> rfl
  | _ => rfl

/-- **An attempt without its calls** is an attempt of the transport level. -/
theorem attempt_refines (holder : Holder) (setup : Setup) (ep : Endpoint) (request : Bytes)
    (io : SocketIo) :
    ((roundTrip holder setup ep request io).1, (roundTrip holder setup ep request io).2.1.kind) =
      ((KserveClient.roundTrip holder.kind ep request (io.attempt setup ep)).1,
        (KserveClient.roundTrip holder.kind ep request (io.attempt setup ep)).2.1) := by
  have hopen := ensureConnected_refines holder setup ep io
  unfold roundTrip KserveClient.roundTrip SocketIo.attempt
  rw [hopen]
  rcases ensureConnected holder setup ep io with ⟨result, live, opening⟩
  cases result with
  | error e => rfl
  | ok transport =>
    dsimp only
    rw [Outcome.ok_andThen, ← after_refines]

end Refinement

/-! ### Operations -/

/-- What surrounds a client at this level. -/
structure SocketEnv (σ : Type) where
  nextAttempt : σ → SocketIo × σ
  sleep : ℤ → σ → σ
  jitter : σ → ℚ × σ

/-- The surroundings as the transport level sees them. -/
def SocketEnv.attempts {σ : Type} (env : SocketEnv σ) (setup : Setup) (ep : Endpoint) : HttpEnv σ where
  nextAttempt s := let (io, s) := env.nextAttempt s; (io.attempt setup ep, s)
  sleep := env.sleep
  jitter := env.jitter

section Operation

variable {σ : Type} (env : SocketEnv σ) (policy : RetryPolicy) (setup : Setup) (ep : Endpoint)
  (request : Bytes)

/-- One attempt of an operation, with the log of the calls made so far. -/
def attemptLogged (t : Holder × σ × List SysCall) : Outcome HttpResponse × Holder × σ × List SysCall :=
  let (holder, s, log) := t
  let (io, s) := env.nextAttempt s
  let (result, holder, calls) := roundTrip holder setup ep request io
  (result, holder, s, log ++ calls)

def sleepLogged (ms : ℤ) (t : Holder × σ × List SysCall) : Holder × σ × List SysCall :=
  let (holder, s, log) := t
  (holder, env.sleep ms s, log)

def jitterLogged (t : Holder × σ × List SysCall) : ℚ × Holder × σ × List SysCall :=
  let (holder, s, log) := t
  let (u, s) := env.jitter s
  (u, holder, s, log)

/-- An operation: the response, the holder and the environment after it, and the log of all calls. -/
def sendRequest (t : Holder × σ × List SysCall) : Outcome HttpResponse × Holder × σ × List SysCall :=
  runWithRetry policy (attemptLogged env setup ep request) (fun r => isRetryableHttpStatus r.status)
    (sleepLogged env) (jitterLogged env) t

end Operation

/-- **An operation without its calls** is an operation of the transport level. -/
theorem sendRequest_refines {σ : Type} (env : SocketEnv σ) (client : HttpClient) (setup : Setup)
    (ep : Endpoint) (request : Bytes) (st : Holder × σ × List SysCall) :
    Prod.map id (fun t : Holder × σ × List SysCall => (t.1.kind, t.2.1))
      (sendRequest env client.retryPolicy setup ep request st) =
      client.sendRequest (env.attempts setup ep) ep request (st.1.kind, st.2.1) := by
  unfold sendRequest HttpClient.sendRequest
  apply runWithRetry_map
  · rintro ⟨holder, s, log⟩
    obtain ⟨hresult, hholder⟩ :=
      Prod.mk.inj (attempt_refines holder setup ep request (env.nextAttempt s).1)
    dsimp only [SocketEnv.attempts]
    rw [← hresult, ← hholder]
    rfl
  · intro i t
    rfl

end Sockets

end KserveClient
