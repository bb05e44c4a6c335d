import KserveClient.Lib.Footprint
import KserveClient.SendBytes
import KserveClient.Sockets

/-!
# KserveClient.Descriptors — who owns which descriptor, and what may be done with it

`SysCall.actions` is the discipline of the calls: what each of them takes, gives back, and may assume of
what it works on.  A socket is connected only with its timeouts set and to an address of the endpoint; a
session is made of a context that verifies the peer; request bytes go only to a socket whose peer is the
endpoint, through an established session if and only if the endpoint asks for TLS, and each request starts
behind complete ones.

* `Owns`: what a holder owns between two attempts.
* `roundTrip_owns`: one attempt keeps to the discipline, and leaves the holder with what it owns.
-/

namespace KserveClient

namespace Sockets

open Footprint

/-! ### Resources -/

inductive Kind where
  /-- a list of addresses from `getaddrinfo` -/
  | list
  | socket
  | context
  | session
deriving DecidableEq

/-- What is known of an open socket. -/
structure Socket where
  receiveTimeout : Option Timeval := none
  sendTimeout : Option Timeval := none
  /-- host and service that it is connected to -/
  peer : Option (Bytes × Bytes) := none
  /-- the complete requests sent on it, and the beginning of the next one -/
  requests : List Bytes := []
  tail : Bytes := []
deriving DecidableEq

/-- What is known of an `SSL_CTX`. -/
structure Context where
  minVersion : Bool := false
  verifyPeer : Bool := false
  roots : Option Roots := none
deriving DecidableEq

/-- The peer is verified, with TLS 1.2 or later. -/
def Context.Verifies (c : Context) : Prop := c.minVersion ∧ c.verifyPeer ∧ c.roots.isSome

instance (c : Context) : Decidable c.Verifies := inferInstanceAs (Decidable (_ ∧ _))

/-- What is known of an `SSL`. -/
structure Session where
  fd : Option ℕ := none
  serverName : Option Bytes := none
  expectedHost : Option Bytes := none
  established : Bool := false
deriving DecidableEq

/-- What is known of a resource. -/
inductive Known where
  | list (host service : Bytes)
  | socket (s : Socket)
  | context (c : Context)
  | session (z : Session)
deriving DecidableEq

/-! ### The discipline -/

def onList (p : ℕ) (ok : Bytes → Bytes → Bool) : Action (Kind × ℕ) Known :=
  .access (.list, p) fun
    | .list host service => if ok host service then some (.list host service) else none
    | _ => none

def onSocket (fd : ℕ) (f : Socket → Option Socket) : Action (Kind × ℕ) Known :=
  .access (.socket, fd) fun
    | .socket s => (f s).map .socket
    | _ => none

def onContext (ctx : ℕ) (f : Context → Option Context) : Action (Kind × ℕ) Known :=
  .access (.context, ctx) fun
    | .context c => (f c).map .context
    | _ => none

def onSession (ssl : ℕ) (f : Session → Option Session) : Action (Kind × ℕ) Known :=
  .access (.session, ssl) fun
    | .session z => (f z).map .session
    | _ => none

/-- `x`, if `p` holds. -/
def assuming {α : Type} (p : Prop) [Decidable p] (x : α) : Option α := if p then some x else none

/-- Host and service of the endpoint. -/
def peerOf (ep : Endpoint) : Bytes × Bytes := (ep.host, toText ep.port)

/-- The socket after it has accepted `bytes` of `request`. -/
def Socket.accept (s : Socket) (request bytes : Bytes) : Socket :=
  if s.tail ++ bytes = request then { s with requests := s.requests ++ [request], tail := [] }
  else { s with tail := s.tail ++ bytes }

/-- The transport is open: as the endpoint asks for it, and with an established session. -/
def Transport.access (ep : Endpoint) : Transport → List (Action (Kind × ℕ) Known)
  | plain fd => [onSocket fd fun s => assuming (ep.tls = false) s]
  | tls fd ctx ssl => [onContext ctx fun c => assuming (ep.tls = true ∧ c.Verifies) c,
      onSession ssl fun z => assuming (z.established ∧ z.fd = some fd ∧ z.expectedHost = some ep.host) z]

/-- What a call takes, gives back and assumes, in an attempt to send `request` to `ep`. -/
def SysCall.actions (setup : Setup) (ep : Endpoint) (request : Bytes) :
    SysCall → List (Action (Kind × ℕ) Known)
  | getaddrinfo host service (some p) => [.acquire (.list, p) (.list host service)]
  | getaddrinfo _ _ none => []
  | freeaddrinfo p => [.release (.list, p)]
  | socket (some fd) => [.acquire (.socket, fd) (.socket {})]
  | socket none => []
  | setReceiveTimeout fd timeout => [onSocket fd fun s => some { s with receiveTimeout := some timeout }]
  | setSendTimeout fd timeout => [onSocket fd fun s => some { s with sendTimeout := some timeout }]
  | connect fd p succeeds => [onList p fun host service => (host, service) = peerOf ep,
      onSocket fd fun s => assuming (s.receiveTimeout = some (timeval setup.timeoutMs) ∧
          s.sendTimeout = some (timeval setup.timeoutMs) ∧ s.peer = none)
        (if succeeds then { s with peer := some (peerOf ep) } else s)]
  | close fd => [.release (.socket, fd)]
  | sslCtxNew (some ctx) => [.acquire (.context, ctx) (.context {})]
  | sslCtxNew none => []
  | sslCtxSetMinProtoVersion ctx => [onContext ctx fun c => some { c with minVersion := true }]
  | sslCtxSetVerify ctx => [onContext ctx fun c => some { c with verifyPeer := true }]
  | sslCtxLoadRoots ctx roots succeeds =>
    [onContext ctx fun c => some (if succeeds then { c with roots := some roots } else c)]
  | sslCtxFree ctx => [.release (.context, ctx)]
  | sslNew ctx ssl => onContext ctx (fun c => assuming (c.Verifies ∧
      c.roots = some (trustedRoots setup.caCert)) c) :: match ssl with
    | some ssl => [.acquire (.session, ssl) (.session {})]
    | none => []
  | sslSetFd ssl fd => [onSocket fd fun s => assuming (s.peer = some (peerOf ep)) s,
      onSession ssl fun z => some { z with fd := some fd }]
  | sslSetHostName ssl host => [onSession ssl fun z => some { z with serverName := some host }]
  | sslSetExpectedHost ssl host succeeds =>
    [onSession ssl fun z => some (if succeeds then { z with expectedHost := some host } else z)]
  | sslConnect ssl fd succeeds => [onSocket fd fun s => assuming (s.peer = some (peerOf ep)) s,
      onSession ssl fun z => assuming (z.fd = some fd ∧ z.serverName = some ep.host ∧
        z.expectedHost = some ep.host) { z with established := succeeds }]
  | sslShutdown ssl fd => [onSocket fd some, onSession ssl fun z => assuming (z.fd = some fd) z]
  | sslFree ssl => [.release (.session, ssl)]
  | send transport offset accepted => transport.access ep ++ [onSocket transport.fd fun s =>
      assuming (s.peer = some (peerOf ep) ∧ s.tail.length = offset ∧ s.tail ++ accepted <+: request)
        (s.accept request accepted)]
  | recv transport => transport.access ep ++ [onSocket transport.fd fun s =>
      assuming (s.peer = some (peerOf ep)) s]

/-- The actions of several calls. -/
def actions (setup : Setup) (ep : Endpoint) (request : Bytes) (calls : List SysCall) :
    List (Action (Kind × ℕ) Known) :=
  calls.flatMap (SysCall.actions setup ep request)

theorem actions_append (setup : Setup) (ep : Endpoint) (request : Bytes) (calls more : List SysCall) :
    actions setup ep request (calls ++ more) =
      actions setup ep request calls ++ actions setup ep request more :=
  List.flatMap_append

/-! ### What one client holds -/

/-- What a client holds of each kind. -/
def slots (list socket context session : Option (ℕ × Known)) : Slots Kind ℕ Known
  | .list => list
  | .socket => socket
  | .context => context
  | .session => session

section Slots

variable {a b c d : Option (ℕ × Known)}

@[simp] theorem slots_list : slots a b c d .list = a := rfl

@[simp] theorem slots_socket : slots a b c d .socket = b := rfl

@[simp] theorem slots_context : slots a b c d .context = c := rfl

@[simp] theorem slots_session : slots a b c d .session = d := rfl

@[simp] theorem update_list (x : Option (ℕ × Known)) :
    Function.update (slots a b c d) .list x = slots x b c d := by
  ext k : 1
  cases k <;> rfl

@[simp] theorem update_socket (x : Option (ℕ × Known)) :
    Function.update (slots a b c d) .socket x = slots a x c d := by
  ext k : 1
  cases k <;> rfl

@[simp] theorem update_context (x : Option (ℕ × Known)) :
    Function.update (slots a b c d) .context x = slots a b x d := by
  ext k : 1
  cases k <;> rfl

@[simp] theorem update_session (x : Option (ℕ × Known)) :
    Function.update (slots a b c d) .session x = slots a b c x := by
  ext k : 1
  cases k <;> rfl

end Slots

/-- Nothing is held. -/
def nothing : Slots Kind ℕ Known := slots none none none none

/-- A transport, with its socket, context and session. -/
def held (s : Socket) (c : Context) (z : Session) : Transport → Slots Kind ℕ Known
  | .plain fd => slots none (some (fd, .socket s)) none none
  | .tls fd ctx ssl => slots none (some (fd, .socket s)) (some (ctx, .context c)) (some (ssl, .session z))

/-- The transport is the one for the scheme, with a session that was established for the host. -/
def Transport.Fits (host : Bytes) (tls : Bool) (c : Context) (z : Session) : Transport → Prop
  | .plain _ => tls = false
  | .tls fd _ _ => tls = true ∧ c.Verifies ∧ z.established ∧ z.fd = some fd ∧ z.expectedHost = some host

/-- What the holder owns between two attempts: nothing, or a transport that fits, on which whole requests
were sent. -/
inductive Owns (holder : Holder) : Slots Kind ℕ Known → Prop
  | nothing (h : holder.transport = none) : Owns holder nothing
  | live {transport : Transport} {s : Socket} {c : Context} {z : Session}
      (h : holder.transport = some transport) (fits : transport.Fits holder.host holder.tls c z)
      (peer : s.peer = some (holder.host, toText holder.port)) (tail : s.tail = []) :
      Owns holder (held s c z transport)

/-- What a transport consists of. -/
def Transport.resources : Transport → List (Kind × ℕ)
  | plain fd => [(.socket, fd)]
  | tls fd ctx ssl => [(.socket, fd), (.context, ctx), (.session, ssl)]

section Owners

variable {holder : Holder} {l : Slots Kind ℕ Known} {transport : Transport}

/-- The socket of a holder's transport is connected to what the holder names, and no request is cut off. -/
theorem Owns.socket (h : Owns holder l) (htransport : holder.transport = some transport) :
    ∃ s, l.heap (.socket, transport.fd) = some (.socket s) ∧
      s.peer = some (holder.host, toText holder.port) ∧ s.tail = [] := by
  cases h with
  | nothing hnone =>
    rw [htransport] at hnone
    cases hnone
  | @live t s c z ht hfits hpeer htail =>
    rw [htransport] at ht
    cases ht
    refine ⟨s, ?_, hpeer, htail⟩
    cases transport <;> simp [Slots.heap, held, Transport.fd]

/-- A holder owns nothing but its transport. -/
theorem Owns.mem_resources (h : Owns holder l) {r : Kind × ℕ} (hr : l.heap r ≠ none) :
    ∃ transport, holder.transport = some transport ∧ r ∈ transport.resources := by
  obtain ⟨k, n⟩ := r
  cases h with
  | nothing hnone =>
    refine absurd ?_ hr
    cases k <;> rfl
  | @live t s c z ht hfits hpeer htail =>
    refine ⟨t, ht, ?_⟩
    by_contra hmem
    refine hr ?_
    cases t <;> cases k <;>
      simp [Slots.heap, held, Transport.resources] at hmem ⊢ <;> exact fun h => hmem h.symm

end Owners

/-! ### Runs of calls -/

/-- The calls keep to the discipline, and lead from `l` to `l'`. -/
def Takes (setup : Setup) (ep : Endpoint) (request : Bytes) (calls : List SysCall)
    (l l' : Slots Kind ℕ Known) : Prop :=
  Slots.run (actions setup ep request calls) l = some l'

section Calls

variable {setup : Setup} {ep : Endpoint} {request : Bytes} {calls more : List SysCall}
  {l l₁ l' : Slots Kind ℕ Known}

theorem Takes.nil (l : Slots Kind ℕ Known) : Takes setup ep request [] l l := rfl

theorem Takes.append (h : Takes setup ep request calls l l₁) (h' : Takes setup ep request more l₁ l') :
    Takes setup ep request (calls ++ more) l l' := by
  unfold Takes at *
  rw [actions_append, Slots.run_append, h, Option.bind_some, h']

/-- A new socket that is connected. -/
def connected (setup : Setup) (ep : Endpoint) : Socket where
  receiveTimeout := some (timeval setup.timeoutMs)
  sendTimeout := some (timeval setup.timeoutMs)
  peer := some (peerOf ep)

/-- The list of the endpoint's addresses. -/
def addressList (ep : Endpoint) (p : ℕ) : ℕ × Known := (p, .list ep.host (toText ep.port))

theorem opening_takes (fd p : ℕ) (succeeds : Bool) :
    Takes setup ep request
      (.socket (some fd) :: setTimeout fd setup.timeoutMs ++ [.connect fd p succeeds])
      (slots (some (addressList ep p)) none none none)
      (slots (some (addressList ep p)) (some (fd, .socket (if succeeds then connected setup ep
        else { connected setup ep with peer := none }))) none none) := by
  cases succeeds <;>
    simp [Takes, actions, SysCall.actions, setTimeout, Slots.run, Slots.apply, onSocket, onList, assuming,
      connected, addressList, peerOf]

theorem close_takes (fd : ℕ) (s : Socket) (a : Option (ℕ × Known)) :
    Takes setup ep request [.close fd] (slots a (some (fd, .socket s)) none none)
      (slots a none none none) := by
  simp [Takes, actions, SysCall.actions, Slots.run, Slots.apply]

/-- The loop over the addresses leaves one connected socket, or none. -/
theorem tryAddresses_takes (p : ℕ) (addresses : List AddressIo) :
    Takes setup ep request (tryAddresses p setup.timeoutMs addresses).2
      (slots (some (addressList ep p)) none none none)
      (slots (some (addressList ep p)) ((tryAddresses p setup.timeoutMs addresses).1.map
        fun fd => (fd, .socket (connected setup ep))) none none) := by
  induction addresses with
  | nil => exact .nil _
  | cons address rest ih =>
    rw [tryAddresses]
    cases hsocket : address.socket with
    | none => exact ih
    | some fd =>
      have hopening := @opening_takes setup ep request fd p address.connects
      dsimp only
      split_ifs with hconnects
      · rw [hconnects] at hopening ⊢
        exact hopening
      · rw [if_neg hconnects] at hopening
        exact hopening.append ((close_takes fd _ _).append ih)

theorem connectSocket_takes (lookup : Lookup) :
    (∃ fd, (connectSocket ep.host ep.port setup.timeoutMs lookup).1 = .ok fd ∧
      Takes setup ep request (connectSocket ep.host ep.port setup.timeoutMs lookup).2 nothing
        (slots none (some (fd, .socket (connected setup ep))) none none)) ∨
    ∃ e, (connectSocket ep.host ep.port setup.timeoutMs lookup).1 = .error e ∧
      Takes setup ep request (connectSocket ep.host ep.port setup.timeoutMs lookup).2 nothing nothing := by
  cases lookup with
  | fails message => exact .inr ⟨_, rfl, by simp [connectSocket, Takes, actions, SysCall.actions, Slots.run]⟩
  | finds p addresses =>
    have hlookup : Takes setup ep request [.getaddrinfo ep.host (toText ep.port) (some p)] nothing
        (slots (some (addressList ep p)) none none none) := by
      simp [Takes, actions, SysCall.actions, Slots.run, Slots.apply, nothing, addressList]
    have hfree : ∀ b, Takes setup ep request [.freeaddrinfo p]
        (slots (some (addressList ep p)) b none none) (slots none b none none) := by
      intro b
      simp [Takes, actions, SysCall.actions, Slots.run, Slots.apply, addressList]
    have hall := (hlookup.append (tryAddresses_takes p addresses)).append (hfree _)
    rcases htry : tryAddresses p setup.timeoutMs addresses with ⟨result, calls⟩
    rw [htry] at hall
    simp only [connectSocket, htry]
    cases result with
    | none => exact .inr ⟨_, rfl, hall⟩
    | some fd => exact .inl ⟨fd, rfl, hall⟩

/-! ### TLS -/

/-- The clean-up gives back whatever is there. -/
theorem cleanup_takes (fd : ℕ) (s : Socket) (ctx ssl : Option ℕ) (c : Context) (z : Session)
    (hz : z.fd = some fd) :
    Takes setup ep request (cleanup fd ctx ssl)
      (slots none (some (fd, .socket s)) (ctx.map fun ctx => (ctx, .context c))
        (ssl.map fun ssl => (ssl, .session z))) nothing := by
  cases ctx <;> cases ssl <;>
    simp [cleanup, Takes, actions, SysCall.actions, Slots.run, Slots.apply, onSocket, onSession, assuming,
      nothing, hz]

theorem cleanup_takes_context (fd : ℕ) (s : Socket) (ctx : Option ℕ) (c : Context) :
    Takes setup ep request (cleanup fd ctx none)
      (slots none (some (fd, .socket s)) (ctx.map fun ctx => (ctx, .context c)) none) nothing :=
  cleanup_takes fd s ctx none c { fd := some fd } rfl

/-- The context of a session. -/
def verifying (setup : Setup) : Context where
  minVersion := true
  verifyPeer := true
  roots := some (trustedRoots setup.caCert)

theorem verifying_verifies (setup : Setup) : (verifying setup).Verifies := ⟨rfl, rfl, rfl⟩

/-- The session before its handshake. -/
def prepared (ep : Endpoint) (fd : ℕ) : Session where
  fd := some fd
  serverName := some ep.host
  expectedHost := some ep.host

/-- **A TLS connection** is an established session for the endpoint's host, or nothing is left of it. -/
theorem tlsConnection_takes (fd : ℕ) (io : TlsIo) :
    (∃ ctx ssl, (tlsConnection fd ep.host setup.caCert io).1 = .ok (.tls fd ctx ssl) ∧
      Takes setup ep request (tlsConnection fd ep.host setup.caCert io).2
        (slots none (some (fd, .socket (connected setup ep))) none none)
        (slots none (some (fd, .socket (connected setup ep))) (some (ctx, .context (verifying setup)))
          (some (ssl, .session { prepared ep fd with established := true })))) ∨
    ∃ e, (tlsConnection fd ep.host setup.caCert io).1 = .error e ∧
      Takes setup ep request (tlsConnection fd ep.host setup.caCert io).2
        (slots none (some (fd, .socket (connected setup ep))) none none) nothing := by
  rw [tlsConnection]
  cases hctx : io.ctx with
  | none =>
    exact .inr ⟨_, rfl, (@Takes.nil setup ep request _).append (cleanup_takes_context fd _ none {})⟩
  | some ctx =>
    have hroots : ∀ loaded, Takes setup ep request [.sslCtxNew (some ctx), .sslCtxSetMinProtoVersion ctx,
        .sslCtxSetVerify ctx, .sslCtxLoadRoots ctx (trustedRoots setup.caCert) loaded]
        (slots none (some (fd, .socket (connected setup ep))) none none)
        (slots none (some (fd, .socket (connected setup ep))) (some (ctx, .context (if loaded then
          verifying setup else { verifying setup with roots := none }))) none) := by
      intro loaded
      cases loaded <;>
        simp [Takes, actions, SysCall.actions, Slots.run, Slots.apply, onContext, verifying]
    cases hloaded : io.rootsLoaded with
    | false => exact .inr ⟨_, rfl, (hroots false).append (cleanup_takes_context fd _ (some ctx) _)⟩
    | true =>
      have hnew : Takes setup ep request [.sslNew ctx none]
          (slots none (some (fd, .socket (connected setup ep))) (some (ctx, .context (verifying setup)))
            none)
          (slots none (some (fd, .socket (connected setup ep))) (some (ctx, .context (verifying setup)))
            none) := by
        simp [Takes, actions, SysCall.actions, Slots.run, Slots.apply, onContext, Context.Verifies, verifying,
          assuming]
      cases hssl : io.ssl with
      | none =>
        exact .inr ⟨_, rfl, ((hroots true).append hnew).append (cleanup_takes_context fd _ (some ctx) _)⟩
      | some ssl =>
        have hhost : ∀ hostSet, Takes setup ep request [.sslNew ctx (some ssl), .sslSetFd ssl fd,
            .sslSetHostName ssl ep.host, .sslSetExpectedHost ssl ep.host hostSet]
            (slots none (some (fd, .socket (connected setup ep))) (some (ctx, .context (verifying setup)))
              none)
            (slots none (some (fd, .socket (connected setup ep))) (some (ctx, .context (verifying setup)))
              (some (ssl, .session (if hostSet then prepared ep fd else
                { prepared ep fd with expectedHost := none })))) := by
          intro hostSet
          cases hostSet <;>
            simp [Takes, actions, SysCall.actions, Slots.run, Slots.apply, onContext, onSocket, onSession,
              Context.Verifies, verifying, assuming, connected, prepared]
        cases hset : io.hostSet with
        | false =>
          exact .inr ⟨_, rfl, ((hroots true).append (hhost false)).append
            (cleanup_takes fd _ (some ctx) (some ssl) _ _ rfl)⟩
        | true =>
          have hshake : ∀ handshake, Takes setup ep request [.sslConnect ssl fd handshake]
              (slots none (some (fd, .socket (connected setup ep)))
                (some (ctx, .context (verifying setup))) (some (ssl, .session (prepared ep fd))))
              (slots none (some (fd, .socket (connected setup ep)))
                (some (ctx, .context (verifying setup)))
                (some (ssl, .session { prepared ep fd with established := handshake }))) := by
            intro handshake
            simp [Takes, actions, SysCall.actions, Slots.run, Slots.apply, onSocket, onSession, assuming,
              connected, prepared]
          have hall := ((hroots true).append (hhost true)).append (hshake io.handshake)
          cases hshaken : io.handshake with
          | false =>
            rw [hshaken] at hall
            exact .inr ⟨_, rfl, hall.append (cleanup_takes fd _ (some ctx) (some ssl) _ _ rfl)⟩
          | true =>
            rw [hshaken] at hall
            exact .inl ⟨ctx, ssl, rfl, hall⟩

/-! ### The holder -/

/-- The destructors give back all that a transport has. -/
theorem destroy_takes {transport : Transport} {s : Socket} {c : Context} {z : Session} {host : Bytes}
    {tls : Bool} (hfits : transport.Fits host tls c z) :
    Takes setup ep request transport.destroy (held s c z transport) nothing := by
  cases transport with
  | plain fd => exact close_takes fd s none
  | tls fd ctx ssl => exact cleanup_takes fd s (some ctx) (some ssl) c z hfits.2.2.2.1

theorem drop_takes {holder : Holder} (h : Owns holder l) :
    Takes setup ep request holder.drop.1 l nothing := by
  cases h with
  | nothing htransport =>
    rw [Holder.drop, htransport]
    exact .nil _
  | live htransport hfits =>
    rw [Holder.drop, htransport]
    exact destroy_takes hfits

theorem drop_owns (holder : Holder) : Owns holder.drop.2 nothing := .nothing rfl

/-- A new connection, or none. -/
theorem connect_takes (io : SocketIo) :
    (∃ transport l', (connect setup ep io).1 = .ok transport ∧
      Takes setup ep request (connect setup ep io).2 nothing l' ∧
      Owns ⟨some transport, ep.host, ep.port, ep.tls⟩ l') ∨
    ∃ e, (connect setup ep io).1 = .error e ∧
      Takes setup ep request (connect setup ep io).2 nothing nothing := by
  have hsocket := @connectSocket_takes setup ep request io.lookup
  rcases hlookup : connectSocket ep.host ep.port setup.timeoutMs io.lookup with ⟨result, calls⟩
  rw [hlookup] at hsocket
  simp only [connect, hlookup]
  rcases hsocket with ⟨fd, hfd, htakes⟩ | ⟨e, he, htakes⟩
  · obtain rfl : result = .ok fd := hfd
    dsimp only
    split_ifs with htls hbuild
    · rcases tlsConnection_takes fd io.tls with ⟨ctx, ssl, hok, hsession⟩ | ⟨e, herror, hsession⟩
      · refine .inl ⟨_, _, hok, htakes.append hsession, ?_⟩
        exact @Owns.live ⟨some (.tls fd ctx ssl), ep.host, ep.port, ep.tls⟩ _ _ _ _ rfl
          ⟨htls, verifying_verifies setup, rfl, rfl, rfl⟩ rfl rfl
      · exact .inr ⟨e, herror, htakes.append hsession⟩
    · exact .inr ⟨_, rfl, htakes.append (close_takes fd _ _)⟩
    · refine .inl ⟨_, _, rfl, htakes, ?_⟩
      exact @Owns.live ⟨some (.plain fd), ep.host, ep.port, ep.tls⟩ _ _ {} {} rfl
        (Bool.eq_false_of_not_eq_true htls) rfl rfl
  · obtain rfl : result = .error e := he
    exact .inr ⟨e, rfl, htakes⟩

/-- The holder targets the endpoint, with a transport. -/
def Holder.Serves (holder : Holder) (ep : Endpoint) (transport : Transport) : Prop :=
  holder.transport = some transport ∧ holder.host = ep.host ∧ holder.port = ep.port ∧ holder.tls = ep.tls

theorem reconnect_takes {holder : Holder} (h : Owns holder l) (io : SocketIo) :
    ∃ l', Takes setup ep request (reconnect holder setup ep io).2.2 l l' ∧
      Owns (reconnect holder setup ep io).2.1 l' ∧
      ∀ transport, (reconnect holder setup ep io).1 = .ok transport →
        (reconnect holder setup ep io).2.1.Serves ep transport := by
  have hdrop := @drop_takes setup ep request l holder h
  rcases @connect_takes setup ep request io with ⟨transport, l', hok, htakes, howns⟩ | ⟨e, he, htakes⟩
  · rcases hconnect : connect setup ep io with ⟨result, calls⟩
    rw [hconnect] at hok htakes
    obtain rfl : result = .ok transport := hok
    simp only [reconnect, hconnect]
    refine ⟨l', hdrop.append htakes, howns, ?_⟩
    intro transport' h'
    cases h'
    exact ⟨rfl, rfl, rfl, rfl⟩
  · rcases hconnect : connect setup ep io with ⟨result, calls⟩
    rw [hconnect] at he htakes
    obtain rfl : result = .error e := he
    simp only [reconnect, hconnect]
    refine ⟨nothing, hdrop.append htakes, drop_owns holder, ?_⟩
    intro transport h'
    cases h'

theorem ensureConnected_takes {holder : Holder} (h : Owns holder l) (io : SocketIo) :
    ∃ l', Takes setup ep request (ensureConnected holder setup ep io).2.2 l l' ∧
      Owns (ensureConnected holder setup ep io).2.1 l' ∧
      ∀ transport, (ensureConnected holder setup ep io).1 = .ok transport →
        (ensureConnected holder setup ep io).2.1.Serves ep transport := by
  rw [ensureConnected]
  cases htransport : holder.transport with
  | none => exact reconnect_takes h io
  | some transport =>
    dsimp only
    split_ifs with hsame
    · refine ⟨l, .nil _, h, ?_⟩
      intro transport' h'
      cases h'
      exact ⟨htransport, hsame⟩
    · exact reconnect_takes h io

/-! ### Sending and receiving -/

section Exchange

variable {transport : Transport} {s : Socket} {c : Context} {z : Session}

/-- What has become of a socket while `request` was being sent. -/
def Socket.Sent (request : Bytes) (s s' : Socket) : Prop :=
  s'.peer = s.peer ∧ (s'.requests = s.requests ∧ s'.tail <+: request ∨
    s'.requests = s.requests ++ [request] ∧ s'.tail = [])

theorem send_takes (hfits : transport.Fits ep.host ep.tls c z) (hpeer : s.peer = some (peerOf ep))
    {accepted : Bytes} (haccepted : s.tail ++ accepted <+: request) :
    Takes setup ep request [.send transport s.tail.length accepted] (held s c z transport)
      (held (s.accept request accepted) c z transport) := by
  cases transport with
  | plain fd =>
    have htls : ep.tls = false := hfits
    simp [Takes, actions, SysCall.actions, Transport.access, Slots.run, Slots.apply, onSocket, assuming,
      held, Transport.fd, htls, hpeer, haccepted]
  | tls fd ctx ssl =>
    obtain ⟨htls, hverifies, hestablished, hfd, hhost⟩ := hfits
    simp [Takes, actions, SysCall.actions, Transport.access, Slots.run, Slots.apply, onSocket, onContext,
      onSession, assuming, held, Transport.fd, htls, hverifies, hestablished, hfd, hhost, hpeer, haccepted]

theorem recv_takes (hfits : transport.Fits ep.host ep.tls c z) (hpeer : s.peer = some (peerOf ep)) (n : ℕ) :
    Takes setup ep request (List.replicate n (.recv transport)) (held s c z transport)
      (held s c z transport) := by
  have hone : Takes setup ep request [.recv transport] (held s c z transport) (held s c z transport) := by
    cases transport with
    | plain fd =>
      have htls : ep.tls = false := hfits
      simp [Takes, actions, SysCall.actions, Transport.access, Slots.run, Slots.apply, onSocket, assuming,
        held, Transport.fd, htls, hpeer]
    | tls fd ctx ssl =>
      obtain ⟨htls, hverifies, hestablished, hfd, hhost⟩ := hfits
      simp [Takes, actions, SysCall.actions, Transport.access, Slots.run, Slots.apply, onSocket, onContext,
        onSession, assuming, held, Transport.fd, htls, hverifies, hestablished, hfd, hhost, hpeer]
  induction n with
  | zero => exact .nil _
  | succ n ih => exact hone.append ih

/-- One call of the loop, with `sent` bytes sent before it. -/
theorem send_part (hfits : transport.Fits ep.host ep.tls c z) {sent : ℕ} (hsent : sent < request.length)
    (hpeer : s.peer = some (peerOf ep)) (htail : s.tail = request.take sent) (n : ℕ) :
    ∃ s', Takes setup ep request [.send transport sent ((request.drop sent).take n)]
        (held s c z transport) (held s' c z transport) ∧ s'.peer = s.peer ∧
      (sent + n < request.length ∧ s'.requests = s.requests ∧ s'.tail = request.take (sent + n) ∨
        request.length ≤ sent + n ∧ s'.requests = s.requests ++ [request] ∧ s'.tail = []) := by
  have hlength : s.tail.length = sent := by
    rw [htail, List.length_take, Nat.min_eq_left hsent.le]
  have hpart : s.tail ++ (request.drop sent).take n = request.take (sent + n) := by
    rw [htail, List.take_add]
  have hcall := @send_takes setup ep request transport s c z hfits hpeer ((request.drop sent).take n)
    (hpart ▸ List.take_prefix _ _)
  rw [hlength] at hcall
  refine ⟨_, hcall, ?_, ?_⟩
  · rw [Socket.accept]
    split_ifs <;> rfl
  · rw [Socket.accept, hpart]
    by_cases hend : request.length ≤ sent + n
    · rw [if_pos (List.take_of_length_le hend)]
      exact .inr ⟨hend, rfl, rfl⟩
    · have hne : request.take (sent + n) ≠ request := by
        intro heq
        have := congrArg List.length heq
        rw [List.length_take] at this
        omega
      rw [if_neg hne]
      exact .inl ⟨by omega, rfl, rfl⟩

/-- **The loop of `sendAll`** sends the request from its beginning on, and all of it if it returns. -/
theorem sendCalls_takes (hfits : transport.Fits ep.host ep.tls c z) (accepted : List ℤ) {sent : ℕ}
    (hsent : sent < request.length) (hpeer : s.peer = some (peerOf ep))
    (htail : s.tail = request.take sent) :
    ∃ s', Takes setup ep request (sendCalls transport request accepted sent) (held s c z transport)
        (held s' c z transport) ∧ Socket.Sent request s s' ∧
      ((sendLoop transport.kind request.length accepted sent).2 = .ok () →
        s'.requests = s.requests ++ [request] ∧ s'.tail = []) := by
  induction accepted generalizing sent s with
  | nil =>
    obtain ⟨s', htakes, hpeer', hpart⟩ :=
      @send_part setup ep request transport s c z hfits sent hsent hpeer htail 0
    rcases hpart with ⟨-, hrequests, htail'⟩ | ⟨hend, -⟩
    · rw [sendCalls, if_pos hsent, sendLoop_waits transport.kind hsent]
      refine ⟨s', htakes, ⟨hpeer', .inl ⟨hrequests, htail' ▸ List.take_prefix _ _⟩⟩, ?_⟩
      intro hok
      cases hok
    · omega
  | cons n accepted ih =>
    obtain ⟨s', htakes, hpeer', hpart⟩ :=
      @send_part setup ep request transport s c z hfits sent hsent hpeer htail n.toNat
    rw [sendCalls, if_pos hsent]
    by_cases hn : n ≤ 0
    · obtain ⟨e, hrefused⟩ := sendLoop_refused transport.kind accepted hsent hn
      rw [if_pos hn, hrefused]
      rcases hpart with ⟨-, hrequests, htail'⟩ | ⟨hend, -⟩
      · refine ⟨s', htakes, ⟨hpeer', .inl ⟨hrequests, htail' ▸ List.take_prefix _ _⟩⟩, ?_⟩
        intro hok
        cases hok
      · omega
    · rw [if_neg hn, sendLoop_accepts transport.kind accepted hsent (not_le.mp hn)]
      rcases hpart with ⟨hmore, hrequests, htail'⟩ | ⟨hend, hrequests, htail'⟩
      · obtain ⟨s'', htakes', ⟨hpeer'', hsent'⟩, hall⟩ := ih hmore (hpeer'.trans hpeer) htail'
        rw [hrequests] at hsent' hall
        exact ⟨s'', htakes.append htakes', ⟨hpeer''.trans hpeer', hsent'⟩, hall⟩
      · have hdone : sendCalls transport request accepted (sent + n.toNat) = [] := by
          cases accepted <;> exact if_neg (not_lt.mpr hend)
        rw [hdone]
        exact ⟨s', htakes, ⟨hpeer', .inr ⟨hrequests, htail'⟩⟩, fun _ => ⟨hrequests, htail'⟩⟩

/-- All calls of `sendAll`. -/
theorem sendAll_takes (hfits : transport.Fits ep.host ep.tls c z) (accepted : List ℤ)
    (hpeer : s.peer = some (peerOf ep)) (htail : s.tail = []) :
    ∃ s', Takes setup ep request (sendCalls transport request accepted 0) (held s c z transport)
        (held s' c z transport) ∧ Socket.Sent request s s' ∧
      (sendAll transport.kind request accepted = .ok () → s'.tail = []) := by
  by_cases hrequest : request = []
  · subst hrequest
    have hnone : sendCalls transport [] accepted 0 = [] := by
      cases accepted <;> rfl
    rw [hnone]
    exact ⟨s, .nil _, ⟨rfl, .inl ⟨rfl, htail ▸ List.prefix_refl _⟩⟩, fun _ => htail⟩
  · obtain ⟨s', htakes, hsent, hall⟩ := @sendCalls_takes setup ep request transport s c z hfits accepted 0
      (List.length_pos_iff.mpr hrequest) hpeer (by rw [htail, List.take_zero])
    exact ⟨s', htakes, hsent, fun hok => (hall hok).2⟩

end Exchange

end Calls

/-! ### One attempt -/

/-- A response comes only after the whole request. -/
theorem exchange_sent {transport : Connection} {request : Bytes} {sends : List ℤ} {recvs unread : List Recv}
    {response : HttpResponse × Bool}
    (h : exchange transport request sends recvs = (.ok response, unread)) :
    sendAll transport request sends = .ok () := by
  rw [exchange] at h
  cases hsend : sendAll transport request sends with
  | ok a => rfl
  | _ =>
    rw [hsend] at h
    cases h

section Attempt

variable {setup : Setup} {ep : Endpoint} {request : Bytes} {holder : Holder} {l : Slots Kind ℕ Known}

/-- **One attempt keeps to the discipline**, and when it comes back, the holder owns what it should. -/
theorem roundTrip_takes (h : Owns holder l) (io : SocketIo) :
    ∃ l', Takes setup ep request (roundTrip holder setup ep request io).2.2 l l' ∧
      ((roundTrip holder setup ep request io).1.ComesBack →
        Owns (roundTrip holder setup ep request io).2.1 l') := by
  obtain ⟨l₁, hopen, howns, hserves⟩ := @ensureConnected_takes setup ep request l holder h io
  rcases hensure : ensureConnected holder setup ep io with ⟨transport, live, opening⟩
  rw [hensure] at hopen howns hserves
  simp only [roundTrip, hensure]
  cases transport with
  | error e => exact ⟨nothing, hopen.append (drop_takes howns), fun _ => drop_owns live⟩
  | ok transport =>
    obtain ⟨htransport, hhost, hport, htls⟩ := hserves transport rfl
    dsimp only at hopen howns htransport hhost hport htls ⊢
    cases howns with
    | nothing hnone =>
      rw [htransport] at hnone
      cases hnone
    | @live t s c z ht hfits hpeer htail =>
      rw [htransport] at ht
      cases ht
      have hpeer' : s.peer = some (peerOf ep) := by
        rw [hpeer, hhost, hport]
        rfl
      have hfits' : transport.Fits ep.host ep.tls c z := by
        rw [← hhost, ← htls]
        exact hfits
      rcases hexchange : exchange transport.kind request io.sends io.recvs with ⟨result, unread⟩
      obtain ⟨s', hsend, hsent, hall⟩ :=
        @sendAll_takes setup ep request transport s c z hfits' io.sends hpeer' htail
      have hpeer'' : s'.peer = some (peerOf ep) := hsent.1.trans hpeer'
      have hcalls := (hopen.append hsend).append
        (@recv_takes setup ep request transport s' c z hfits' hpeer'' (io.recvs.length - unread.length))
      have hdrop : live.drop.1 = transport.destroy := by
        rw [Holder.drop, htransport]
      have hclosed : Takes setup ep request live.drop.1 (held s' c z transport) nothing := by
        rw [hdrop]
        exact destroy_takes hfits'
      dsimp only
      cases result with
      | ok response =>
        obtain ⟨response, close⟩ := response
        cases close with
        | true => exact ⟨nothing, hcalls.append hclosed, fun _ => drop_owns live⟩
        | false =>
          have hkept : s'.peer = some (live.host, toText live.port) := by
            rw [hpeer'', hhost, hport]
            rfl
          exact ⟨_, hcalls.append (.nil _), fun _ =>
            @Owns.live live transport s' c z htransport hfits hkept (hall (exchange_sent hexchange))⟩
      | throws e => exact ⟨nothing, hcalls.append hclosed, fun _ => drop_owns live⟩
      | _ =>
        refine ⟨_, hcalls.append (.nil _), ?_⟩
        rintro (⟨a, hback⟩ | ⟨e, hback⟩) <;> cases hback

end Attempt

end Sockets

end KserveClient
