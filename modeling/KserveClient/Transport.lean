import KserveClient.HttpMessage

/-!
# KserveClient.Transport — framed reading, sending, and the keep-alive connection

A `Connection` is a plain or a TLS byte transport; what its calls return is the environment's choice.
`readFramed` reads until `messageComplete` or the end of input from a script of `recv` results and says
what is left of the script; `sendAll` takes a script of the numbers of bytes accepted.  `roundTrip` is
one attempt on an `HttpConnection` with everything the network does to it (`AttemptIo`).
-/

namespace KserveClient

open ListSearch

/-- The two transports. -/
inductive Connection where
  | plain
  | tls
deriving DecidableEq

/-- The size of the reader's buffer. -/
def bufferSize : ℕ := 4096

/-- What one call to `recvSome` delivers. -/
structure Piece where
  bytes : Bytes
  ne_nil : bytes ≠ []
  le_buffer : bytes.length ≤ bufferSize
deriving DecidableEq

/-- What `::recv` or `SSL_read` returns. -/
inductive Recv where
  | bytes (piece : Piece)
  | zero
  | negative
deriving DecidableEq

/-- `recvSome`: the TLS transport reports every non-positive return as the end of input. -/
def recvSome : Connection → Recv → Recv
  | .tls, .negative => .zero
  | _, r => r

/-! ### Reading -/

/-- The marker of the `Content-Length` field, at a line boundary. -/
def lengthMarker : Bytes := crlf ++ str "content-length:"

/-- Does `raw` already hold a complete message? -/
def messageComplete (raw : Bytes) : Bool :=
  match find crlf2 raw with
  | none => false
  | some headerEnd =>
    let headers := toLower (raw.take headerEnd)
    let bodyStart := headerEnd + 4
    if looksChunked headers then
      (findFrom (crlf ++ str "0" ++ crlf2) raw headerEnd).isSome ||
        (raw.drop bodyStart).take 5 == str "0" ++ crlf2
    else
      match find lengthMarker headers with
      | some pos =>
        match stol (headers.drop (pos + lengthMarker.length)) with
        | .ok len => (bodyStart + (len % sizeMod).toNat) % sizeMod ≤ raw.length
        | _ => false
      | none => false

/-- The loop of `readFramed`, with `raw` received so far: the bytes and whether the peer closed first,
and what is left unread. -/
def readLoop (conn : Connection) : List Recv → Bytes → Outcome (Bytes × Bool) × List Recv
  | [], raw => if messageComplete raw then (.ok (raw, false), []) else (.blocked, [])
  | r :: rest, raw =>
    if messageComplete raw then (.ok (raw, false), r :: rest)
    else
      match recvSome conn r with
      | .negative => (throwRuntime (str "HTTP recv failed"), rest)
      | .zero => (.ok (raw, true), rest)
      | .bytes piece =>
        if raw.length + piece.bytes.length < maxSize then readLoop conn rest (raw ++ piece.bytes)
        else (.throws .lengthError, rest)

def readFramed (conn : Connection) (script : List Recv) : Outcome (Bytes × Bool) × List Recv :=
  let (result, rest) := readLoop conn script []
  (do
    let (raw, serverClosed) ← result
    if raw = [] then throwRuntime (str "HTTP read failed: empty response")
    else pure (raw, serverClosed), rest)

def wantsClose (raw : Bytes) : Bool :=
  let headers := toLower (match find crlf2 raw with
    | none => raw
    | some headerEnd => raw.take headerEnd)
  (find (str "connection: close") headers).isSome

/-! ### Sending -/

/-- The length passed to `::send` or `SSL_write` for `left` remaining bytes: the second takes an
`int`. -/
def sendLength : Connection → ℕ → ℤ
  | .plain, left => left
  | .tls, left => (left + 2 ^ 31) % 2 ^ 32 - 2 ^ 31

/-- The loop of `sendAll` with `sent` bytes sent: the calls made, as offsets and lengths, and how the
loop ends when the calls return the numbers `accepted`. -/
def sendLoop (conn : Connection) (size : ℕ) : List ℤ → ℕ → List (ℕ × ℤ) × Outcome Unit
  | [], sent => if sent < size then ([(sent, sendLength conn (size - sent))], .blocked) else ([], .ok ())
  | n :: accepted, sent =>
    if sent < size then
      let call := (sent, sendLength conn (size - sent))
      if n ≤ 0 then
        ([call], throwRuntime (match conn with
          | .plain => str "HTTP send failed"
          | .tls => str "TLS send failed"))
      else
        let (calls, result) := sendLoop conn size accepted (sent + n.toNat)
        (call :: calls, result)
    else ([], .ok ())

def sendAll (conn : Connection) (data : Bytes) (accepted : List ℤ) : Outcome Unit :=
  (sendLoop conn data.length accepted 0).2

/-! ### The keep-alive connection -/

structure HttpConnection where
  transport : Option Connection
  host : Bytes
  port : ℤ
  tls : Bool
deriving DecidableEq

/-- The empty holder. -/
def HttpConnection.drop (_ : HttpConnection) : HttpConnection := ⟨none, [], 0, false⟩

/-- What the network does in one attempt. -/
structure AttemptIo where
  /-- the exception of `connect`, if a connection is opened and that fails -/
  connect : Option Exn
  /-- the results of the calls that send -/
  sends : List ℤ
  /-- the results of the calls that receive -/
  recvs : List Recv

/-- Drops the old connection and opens a new one. -/
def reconnect (conn : HttpConnection) (ep : Endpoint) (connect : Option Exn) :
    Outcome Connection × HttpConnection :=
  match connect with
  | some e => (.throws e, conn.drop)
  | none =>
    let transport := if ep.tls then Connection.tls else Connection.plain
    (.ok transport, ⟨some transport, ep.host, ep.port, ep.tls⟩)

/-- The live transport for `ep`, reused or newly opened. -/
def ensureConnected (conn : HttpConnection) (ep : Endpoint) (connect : Option Exn) :
    Outcome Connection × HttpConnection :=
  match conn.transport with
  | some transport =>
    if conn.host = ep.host ∧ conn.port = ep.port ∧ conn.tls = ep.tls then (.ok transport, conn)
    else reconnect conn ep connect
  | none => reconnect conn ep connect

/-- Sends the request and reads and parses the response: the response and whether the connection is to
be dropped, and what is left unread. -/
def exchange (transport : Connection) (request : Bytes) (sends : List ℤ) (recvs : List Recv) :
    Outcome (HttpResponse × Bool) × List Recv :=
  (sendAll transport request sends).andThen (fun _ recvs =>
    let (result, unread) := readFramed transport recvs
    (do
      let (raw, serverClosed) ← result
      let response ← parseHttpResponse raw
      pure (response, serverClosed || wantsClose raw), unread)) recvs

/-- The connection holder after an exchange: dropped on every exception. -/
def HttpConnection.after (conn : HttpConnection) : Outcome (HttpResponse × Bool) → HttpConnection
  | .ok (_, close) => if close then conn.drop else conn
  | .throws _ => conn.drop
  | _ => conn

/-- One attempt: the response, the connection holder after it, and what is left unread. -/
def roundTrip (conn : HttpConnection) (ep : Endpoint) (request : Bytes) (io : AttemptIo) :
    Outcome HttpResponse × HttpConnection × List Recv :=
  let (transport, conn) := ensureConnected conn ep io.connect
  let (result, unread) :=
    transport.andThen (fun transport => exchange transport request io.sends) io.recvs
  (Prod.fst <$> result, conn.after result, unread)

end KserveClient
