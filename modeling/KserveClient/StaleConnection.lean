import KserveClient.HttpClient
import KserveClient.KeepAlive

/-!
# KserveClient.StaleConnection — a kept connection that the server has closed

A `Session` is the connection of a client between its operations: the holder, the state of the network,
and whether the server has closed the connection meanwhile.  `Serves` is what the network does in an
operation: nothing arrives on a connection that is closed, every other one delivers the answer.

* `roundTrip_delivers`, `roundTrip_gone`: one attempt on each of the two.
* `Session.step_served`: one operation, with the log of its attempts.
* `Session.run_served`: every operation of every run returns its answer.
-/

namespace KserveClient

open ListSearch

/-! ### Answers -/

/-- A complete answer: a reply framed by its `Content-Length`, with a status that is not retried. -/
structure Answer extends Reply where
  version : Bytes
  status : Bytes
  version_ok : 32 ∉ version
  status_ok : status.length = 3 ∧ status.all (Numeral.isDigit 10)
  statusLine : version ++ 32 :: (status ++ [32]) <+: head.bytes
  final : isRetryableHttpStatus (Numeral.value 10 status) = false
  fits : toReply.bytes.length < maxSize

namespace Answer

variable (a : Answer)

def response : HttpResponse :=
  ⟨Numeral.value 10 a.status, a.body, parseInferenceHeaderLength a.head.bytes⟩

theorem response_final : isRetryableHttpStatus a.response.status = false := a.final

theorem parseHttpResponse_bytes : parseHttpResponse a.bytes = .ok a.response := by
  have hhead : a.head.bytes <+: a.head.bytes ++ crlf2 ++ a.body := by
    rw [List.append_assoc]
    exact List.prefix_append _ _
  have hplain : looksChunked (toLower a.head.bytes) = false := by
    rw [looksChunked, a.plain]
    rfl
  rw [Reply.bytes, parseHttpResponse,
    parseStatus_of_isPrefix a.version_ok a.status_ok (a.statusLine.trans hhead), Outcome.ok_bind]
  simp only [a.head.find_terminator, a.head.take_bytes, a.head.drop_bytes, hplain, Bool.false_eq_true,
    if_false]
  rfl

/-- However the answer is cut, the reader reads exactly the answer. -/
theorem readFramed_pieces {transport : Connection} {pieces : List Piece}
    (hpieces : joined pieces = a.bytes) (more : List Recv) :
    readFramed transport (pieces.map .bytes ++ more) = (.ok (a.bytes, false), more) := by
  have hne : a.bytes ≠ [] := by
    simp [Reply.bytes, crlf2, crlf]
  rw [readFramed_ok, and_iff_left hne, ← hpieces, readLoop_exact_iff, hpieces]
  refine ⟨a.fits, (a.messageComplete_iff (List.prefix_refl _) a.fits).mpr rfl, fun k hk => ?_⟩
  have hpre : joined (pieces.take k) <+: a.bytes := hpieces ▸ joined_take_isPrefix pieces k
  rw [← Bool.not_eq_true, a.messageComplete_iff hpre (hpre.length_le.trans_lt a.fits), ← hpieces]
  exact joined_take_ne hk

end Answer

/-! ### One attempt -/

/-- The transport of a new connection. -/
def Endpoint.transport (ep : Endpoint) : Connection := if ep.tls then .tls else .plain

/-- The request is sent, and the answer arrives, in pieces of any sizes. -/
def Delivers (transport : Connection) (request : Bytes) (io : AttemptIo) (a : Answer) : Prop :=
  sendAll transport request io.sends = .ok () ∧
    ∃ pieces more, io.recvs = pieces.map .bytes ++ more ∧ joined pieces = a.bytes

/-- The peer has closed: sending succeeds or fails, and receiving ends at once. -/
def Gone (transport : Connection) (request : Bytes) (io : AttemptIo) : Prop :=
  (∃ e, sendAll transport request io.sends = .throws e) ∨
    sendAll transport request io.sends = .ok () ∧
      ∃ r more, io.recvs = r :: more ∧ (r = .zero ∨ r = .negative)

section Attempts

variable {conn live : HttpConnection} {ep : Endpoint} {request : Bytes} {io : AttemptIo} {a : Answer}
  {transport : Connection}

theorem ensureConnected_targets (htransport : conn.transport = some transport) (h : conn.Targets ep)
    (connect : Option Exn) : ensureConnected conn ep connect = (.ok transport, conn) := by
  rw [ensureConnected, htransport]
  exact if_pos h.2

/-- A holder that does not target the endpoint opens a new connection. -/
theorem ensureConnected_not_targets (h : ¬ conn.Targets ep) (connect : Option Exn) :
    ensureConnected conn ep connect = reconnect conn ep connect := by
  rw [ensureConnected]
  cases htransport : conn.transport with
  | none => rfl
  | some transport =>
    refine if_neg fun hsame => h ⟨?_, hsame⟩
    rw [htransport]
    rfl

theorem not_targets_of_empty (h : conn.transport = none) : ¬ conn.Targets ep := by
  rintro ⟨hsome, -⟩
  rw [h] at hsome
  cases hsome

/-- An empty holder takes the new connection. -/
theorem ensureConnected_empty (h : conn.transport = none) {connect : Option Exn}
    (hconnect : connect = none) : ensureConnected conn ep connect =
      (.ok ep.transport, ⟨some ep.transport, ep.host, ep.port, ep.tls⟩) := by
  rw [ensureConnected_not_targets (not_targets_of_empty h), hconnect]
  rfl

/-- **An attempt on a connection that delivers** returns the answer. -/
theorem roundTrip_delivers (hopen : ensureConnected conn ep io.connect = (.ok transport, live))
    (hlive : live.Targets ep) (h : Delivers transport request io a) :
    ∃ conn' unread, roundTrip conn ep request io = (.ok a.response, conn', unread) ∧
      (conn'.transport = none ∨ conn'.Targets ep) := by
  obtain ⟨hsend, pieces, more, hrecvs, hpieces⟩ := h
  have hread : readFramed transport io.recvs = (.ok (a.bytes, false), more) := by
    rw [hrecvs]
    exact a.readFramed_pieces hpieces more
  refine ⟨_, more, roundTrip_ok.mpr ⟨transport, live, a.bytes, false, hopen, hsend, hread,
    a.parseHttpResponse_bytes, rfl⟩, ?_⟩
  split_ifs
  · exact .inl rfl
  · exact .inr hlive

/-- **An attempt on a connection that is gone** throws, and the holder is empty after it. -/
theorem roundTrip_gone (hopen : ensureConnected conn ep io.connect = (.ok transport, live))
    (h : Gone transport request io) :
    ∃ e conn' unread, roundTrip conn ep request io = (.throws e, conn', unread) ∧
      conn'.transport = none := by
  have hexchange : ∃ e unread, exchange transport request io.sends io.recvs = (.throws e, unread) := by
    rw [exchange]
    rcases h with ⟨e, hsend⟩ | ⟨hsend, r, more, hrecvs, hr⟩
    · rw [hsend]
      exact ⟨e, io.recvs, rfl⟩
    · have hclosed : messageComplete [] = false := by decide
      have hread : ∃ e, readFramed transport io.recvs = (.throws e, more) := by
        rw [hrecvs, readFramed, readLoop, hclosed]
        rcases hr with rfl | rfl <;> cases transport <;> exact ⟨_, rfl⟩
      obtain ⟨e, hread⟩ := hread
      rw [hsend, Outcome.ok_andThen, hread]
      exact ⟨e, more, rfl⟩
  obtain ⟨e, unread, hexchange⟩ := hexchange
  have htrip : roundTrip conn ep request io = (.throws e, live.drop, unread) := by
    rw [roundTrip, hopen]
    simp only [Outcome.ok_andThen, hexchange]
    rfl
  exact ⟨e, live.drop, unread, htrip, roundTrip_throws htrip⟩

end Attempts

/-! ### One operation -/

section Operation

variable {σ : Type} (env : HttpEnv σ) (client : HttpClient) (ep : Endpoint) (request : Bytes)

/-- `sendRequest` with a log of its attempts: whether each of them opened a connection. -/
def HttpClient.sendRequestLogged (st : HttpConnection × σ × List Bool) :
    Outcome HttpResponse × HttpConnection × σ × List Bool :=
  runWithRetry client.retryPolicy
    (fun (conn, s, log) =>
      let (io, s) := env.nextAttempt s
      let (result, conn', _) := roundTrip conn ep request io
      (result, conn', s, log ++ [decide (¬ conn.Targets ep)]))
    (fun r => isRetryableHttpStatus r.status)
    (fun ms (conn, s, log) => (conn, env.sleep ms s, log))
    (fun (conn, s, log) => let (u, s) := env.jitter s; (u, conn, s, log)) st

/-- The log of an operation. -/
def HttpClient.attemptLog (st : HttpConnection × σ) : List Bool :=
  (client.sendRequestLogged env ep request (st.1, st.2, [])).2.2.2

/-- The log is a ghost: without it, the operation is `sendRequest`. -/
theorem sendRequestLogged_eq (st : HttpConnection × σ × List Bool) :
    Prod.map id (fun t : HttpConnection × σ × List Bool => (t.1, t.2.1))
      (client.sendRequestLogged env ep request st) =
      client.sendRequest env ep request (st.1, st.2.1) := by
  unfold HttpClient.sendRequestLogged HttpClient.sendRequest
  apply runWithRetry_map
  · intro t
    rfl
  · intro i t
    rfl

/-- The state of the network when a second attempt begins. -/
def secondState (s : σ) : σ :=
  let (_, s) := env.nextAttempt s
  let (u, s) := env.jitter s
  env.sleep (backoffDelayMs client.retryPolicy 1 u) s

/-- A connection can be opened in this attempt, and delivers the answer. -/
def OpensAndDelivers (io : AttemptIo) (a : Answer) : Prop :=
  io.connect = none ∧ Delivers ep.transport request io a

/-- What the network does in an operation on the holder `conn`, whose connection may be closed. -/
def Serves (a : Answer) (conn : HttpConnection) (closed : Bool) (s : σ) : Prop :=
  match conn.transport with
  | none => OpensAndDelivers ep request (env.nextAttempt s).1 a
  | some transport =>
    if closed then
      Gone transport request (env.nextAttempt s).1 ∧
        OpensAndDelivers ep request (env.nextAttempt (secondState env client s)).1 a
    else Delivers transport request (env.nextAttempt s).1 a

/-- The holder is empty, or its connection is to the client's endpoint. -/
def HttpConnection.Ready (conn : HttpConnection) : Prop := conn.transport = none ∨ conn.Targets ep

variable {env client ep request} {a : Answer} {conn : HttpConnection} {closed : Bool} {s : σ}

/-- A first attempt that returns the answer. -/
theorem sendRequestLogged_first {io : AttemptIo} {s' : σ} {conn' : HttpConnection}
    {unread : List Recv} (hnext : env.nextAttempt s = (io, s'))
    (htrip : roundTrip conn ep request io = (.ok a.response, conn', unread)) :
    client.sendRequestLogged env ep request (conn, s, []) =
      (.ok a.response, conn', s', [decide (¬ conn.Targets ep)]) := by
  rw [HttpClient.sendRequestLogged, runWithRetry_first]
  · simp only [hnext, htrip, List.nil_append]
  · simp only [hnext, htrip, IsFinal]
    rw [a.response_final]
    rfl

/-- A first attempt that throws, and a second one that returns the answer. -/
theorem sendRequestLogged_second (hpolicy : 2 ≤ client.retryPolicy.maxAttempts) {io io₂ : AttemptIo}
    {s₁ s₂ : σ} {empty conn' : HttpConnection} {unread unread₂ : List Recv} {e : Exn}
    (hnext : env.nextAttempt s = (io, s₁))
    (htrip : roundTrip conn ep request io = (.throws e, empty, unread))
    (hnext₂ : env.nextAttempt (secondState env client s) = (io₂, s₂))
    (htrip₂ : roundTrip empty ep request io₂ = (.ok a.response, conn', unread₂)) :
    client.sendRequestLogged env ep request (conn, s, []) =
      (.ok a.response, conn', s₂, [decide (¬ conn.Targets ep), decide (¬ empty.Targets ep)]) := by
  have hattempts : 1 < client.retryPolicy.attempts := by
    rw [RetryPolicy.attempts, if_pos (by omega)]
    omega
  have hsecond : secondState env client s =
      env.sleep (backoffDelayMs client.retryPolicy 1 (env.jitter s₁).1) (env.jitter s₁).2 := by
    rw [secondState, hnext]
  have hone : ((0 : ℕ) : ℤ) + 1 = 1 := rfl
  rw [hsecond] at hnext₂
  rw [HttpClient.sendRequestLogged, runWithRetry_run hattempts]
  · simp only [roundState, backoff, hnext, htrip, hone, hnext₂, htrip₂]
    rfl
  · intro j hj
    obtain rfl : j = 0 := by omega
    simp only [roundState, hnext, htrip, IsFinal]
  · refine .inr ?_
    simp only [roundState, backoff, hnext, htrip, hone, hnext₂, htrip₂, IsFinal]
    rw [a.response_final]
    rfl

/-- **An operation that is served** returns the answer, with at most two attempts and one new
connection, which is opened only in place of none or of one that is closed. -/
theorem sendRequestLogged_serves (hpolicy : 2 ≤ client.retryPolicy.maxAttempts)
    (hready : conn.Ready ep) (hserves : Serves env client ep request a conn closed s) :
    ∃ conn' s' log, client.sendRequestLogged env ep request (conn, s, []) =
        (.ok a.response, conn', s', log) ∧ conn'.Ready ep ∧ log.length ≤ 2 ∧ log.count true ≤ 1 ∧
      (true ∈ log → conn.transport = none ∨ closed = true) := by
  rcases hnext : env.nextAttempt s with ⟨io, s₁⟩
  rw [Serves] at hserves
  cases htransport : conn.transport with
  | none =>
    simp only [htransport, hnext] at hserves
    obtain ⟨hconnect, hdelivers⟩ := hserves
    obtain ⟨conn', unread, htrip, hready'⟩ := roundTrip_delivers
      (ensureConnected_empty htransport hconnect) ⟨rfl, rfl, rfl, rfl⟩ hdelivers
    refine ⟨conn', s₁, _, sendRequestLogged_first hnext htrip, hready', ?_, ?_, fun _ => .inl rfl⟩
    · simp
    · exact List.count_le_length
  | some transport =>
    have htargets : conn.Targets ep := by
      rcases hready with hnone | htargets
      · rw [htransport] at hnone
        cases hnone
      · exact htargets
    have hopen := ensureConnected_targets htransport htargets io.connect
    simp only [htransport, hnext] at hserves
    cases hclosed : closed with
    | false =>
      rw [hclosed, if_neg (by simp)] at hserves
      obtain ⟨conn', unread, htrip, hready'⟩ := roundTrip_delivers hopen htargets hserves
      refine ⟨conn', s₁, _, sendRequestLogged_first hnext htrip, hready', ?_, ?_, ?_⟩
      · simp
      · exact List.count_le_length
      · simp [htargets]
    | true =>
      rw [hclosed, if_pos rfl] at hserves
      obtain ⟨hgone, hconnect, hdelivers⟩ := hserves
      -- the first attempt throws and empties the holder, the second opens a connection
      obtain ⟨e, empty, unread, htrip, hempty⟩ := roundTrip_gone hopen hgone
      obtain ⟨conn', unread₂, htrip₂, hready'⟩ := roundTrip_delivers
        (ensureConnected_empty hempty hconnect) ⟨rfl, rfl, rfl, rfl⟩ hdelivers
      refine ⟨conn', _, _, sendRequestLogged_second hpolicy hnext htrip rfl htrip₂, hready', ?_, ?_,
        fun _ => .inr rfl⟩
      · simp
      · simp [htargets, not_targets_of_empty hempty]

end Operation

/-! ### Sessions -/

/-- The client's connection between two operations. -/
structure Session (σ : Type) where
  conn : HttpConnection
  network : σ
  /-- the server has closed the connection since the last operation -/
  closed : Bool

namespace Session

/-- What happens to a session. -/
inductive Event where
  /-- the server closes the idle connection -/
  | closes
  /-- one operation: whether a connection was held and whether it was closed, the result, and the log -/
  | operation (request : Bytes) (answer : Answer) (held closed : Bool)
      (result : Outcome HttpResponse) (log : List Bool)

section Runs

variable {σ : Type} (env : HttpEnv σ) (client : HttpClient) (ep : Endpoint)

inductive Step : Session σ → Event → Session σ → Prop
  | closes (w : Session σ) : Step w .closes { w with closed := true }
  | operation {w : Session σ} {request : Bytes} {answer : Answer} {result : Outcome HttpResponse}
      {conn : HttpConnection} {s : σ}
      (serves : Serves env client ep request answer w.conn w.closed w.network)
      (sends : client.sendRequest env ep request (w.conn, w.network) = (result, conn, s)) :
      Step w (.operation request answer w.conn.transport.isSome w.closed result
        (client.attemptLog env ep request (w.conn, w.network))) ⟨conn, s, false⟩

def Ready (w : Session σ) : Prop := w.conn.Ready ep

/-- The operation returns the answer, with at most two attempts and at most one new connection, which
is opened only when none was held or the one held was closed. -/
def Event.Served : Event → Prop
  | .closes => True
  | .operation _ answer held closed result log =>
    result = .ok answer.response ∧ log.length ≤ 2 ∧ log.count true ≤ 1 ∧
      (true ∈ log → held = false ∨ closed = true)

variable {env client ep}

theorem step_served (hpolicy : 2 ≤ client.retryPolicy.maxAttempts) {w w' : Session σ} {e : Event}
    (hready : w.Ready ep) (hstep : Step env client ep w e w') : w'.Ready ep ∧ e.Served := by
  cases hstep with
  | closes => exact ⟨hready, trivial⟩
  | operation serves sends =>
    rename_i request answer result conn s
    obtain ⟨conn', s', log, hlogged, hready', hlength, hcount, hopened⟩ :=
      sendRequestLogged_serves hpolicy hready serves
    have hsame := sendRequestLogged_eq env client ep request (w.conn, w.network, [])
    rw [hlogged, sends] at hsame
    cases hsame
    have hlog : client.attemptLog env ep request (w.conn, w.network) = log := by
      rw [HttpClient.attemptLog, hlogged]
    rw [hlog]
    refine ⟨hready', rfl, hlength, hcount, fun hmem => ?_⟩
    refine (hopened hmem).imp_left fun hnone => ?_
    rw [hnone]
    rfl

end Runs

section Witness

def helloAnswer : Answer where
  toReply := Wire.helloReply
  version := str "HTTP/1.1"
  status := str "200"
  version_ok := okLine_version
  status_ok := okLine_status
  statusLine := ⟨str "OK" ++ fieldLines [lengthField (str " 5") five_ok], by decide⟩
  final := by decide
  fits := by decide

def helloClient : HttpClient := ⟨str "h", str "m", [], [], {}, []⟩

def helloEndpoint : Endpoint := ⟨str "h", 80, [], false⟩

def emptyHolder : HttpConnection := ⟨none, [], 0, false⟩

def helloHolder : HttpConnection := ⟨some .plain, str "h", 80, false⟩

def helloIo : AttemptIo := ⟨none, [1], [.bytes helloPiece]⟩

/-- Sending still succeeds, and the end of input follows. -/
def goneIo : AttemptIo := ⟨none, [1], [.zero]⟩

theorem helloIo_delivers : Delivers .plain [1] helloIo helloAnswer :=
  ⟨by decide, [helloPiece], [], rfl, by decide⟩

theorem roundTrip_hello : roundTrip emptyHolder helloEndpoint [1] helloIo =
    (.ok helloAnswer.response, helloHolder, []) := by
  decide +kernel

theorem roundTrip_stale : roundTrip helloHolder helloEndpoint [1] goneIo =
    (throwRuntime (str "HTTP read failed: empty response"), emptyHolder, []) := by
  decide +kernel

end Witness

end Session

end KserveClient
