import KserveClient.ContentLength
import KserveClient.Lib.Run

/-!
# KserveClient.KeepAlive — request and response pairing on a kept connection

A `Wire` is a connection holder together with the bytes that the server has sent on its connection and
the client has not read.  An `Attempt` is a round trip with everything the network does in it and the
reply of the server to a complete request; `Wire.Step` is one attempt that comes back.

* `Wire.step_drained`: after an attempt the connection is dropped or nothing is left on it.
* `Wire.run_drained`: so over every run, each response is parsed from the reply to its own request.
-/

namespace KserveClient

open ListSearch

/-! ### Replies -/

/-- A response framed by its `Content-Length`. -/
structure Reply where
  head : ResponseHead
  body : Bytes
  declares : DeclaresLength head.bytes body.length
  plain : find (str "transfer-encoding:") (toLower head.bytes) = none

namespace Reply

def bytes (r : Reply) : Bytes := r.head.bytes ++ crlf2 ++ r.body

variable (r : Reply)

theorem length_bytes : r.bytes.length = r.head.bytes.length + 4 + r.body.length := by
  have hcrlf2 : crlf2.length = 4 := rfl
  rw [bytes, List.length_append, List.length_append, hcrlf2]

theorem find_terminator : find crlf2 r.bytes = some r.head.bytes.length :=
  r.head.find_terminator r.body

theorem take_head : r.bytes.take r.head.bytes.length = r.head.bytes := r.head.take_bytes r.body

theorem looksChunked_head :
    looksChunked (toLower (r.bytes.take r.head.bytes.length)) = false := by
  rw [take_head, looksChunked, r.plain]
  rfl

/-- No proper part of a reply counts as complete. -/
theorem messageComplete_iff {raw : Bytes} (hraw : raw <+: r.bytes) (hsize : raw.length < maxSize) :
    messageComplete raw = true ↔ raw = r.bytes := by
  by_cases hlen : raw.length < r.head.bytes.length + 4
  · rw [messageComplete_short hraw r.find_terminator hlen]
    refine iff_of_false (by simp) ?_
    rintro rfl
    rw [length_bytes] at hlen
    omega
  · have hlength : DeclaresLength (r.bytes.take r.head.bytes.length) r.body.length := by
      rw [take_head]
      exact r.declares
    rw [messageComplete_of_isPrefix hraw r.find_terminator r.looksChunked_head hlength hsize
      (Nat.le_of_not_lt hlen), decide_eq_true_eq, ← length_bytes]
    constructor
    · intro hle
      exact hraw.eq_of_length_le hle
    · rintro rfl
      exact le_rfl

theorem body_of_parse {response : HttpResponse} (h : parseHttpResponse r.bytes = .ok response) :
    response.body = r.body := by
  rw [parseHttpResponse_plain r.find_terminator r.looksChunked_head h]
  exact r.head.drop_bytes r.body

end Reply

/-! ### The wire -/

/-- One round trip: what is asked for, what the network does, and the reply to the request. -/
structure Attempt where
  ep : Endpoint
  request : Bytes
  io : AttemptIo
  reply : Reply

/-- The end of input, or an error, comes before the whole reply has been delivered. -/
def Attempt.ClosedEarly (a : Attempt) : Prop :=
  ∃ pieces r rest, a.io.recvs = pieces.map .bytes ++ r :: rest ∧ (r = .zero ∨ r = .negative) ∧
    joined pieces ≠ a.reply.bytes

/-- The connection is open to this endpoint. -/
def HttpConnection.Targets (conn : HttpConnection) (ep : Endpoint) : Prop :=
  conn.transport.isSome ∧ conn.host = ep.host ∧ conn.port = ep.port ∧ conn.tls = ep.tls

instance (conn : HttpConnection) (ep : Endpoint) : Decidable (conn.Targets ep) :=
  inferInstanceAs (Decidable (_ ∧ _))

/-- The client's connection, and what the server has sent on it that is not read yet. -/
structure Wire where
  conn : HttpConnection
  pending : Bytes
deriving DecidableEq

namespace Wire

/-- The request is sent completely. -/
def sent (w : Wire) (a : Attempt) : Bool :=
  match (ensureConnected w.conn a.ep a.io.connect).1 with
  | .ok transport => decide (sendAll transport a.request a.io.sends = .ok ())
  | _ => false

/-- What the server has sent when the response is read: the rest from before on a reused connection, and
one reply to a complete request. -/
def incoming (w : Wire) (a : Attempt) : Bytes :=
  (if w.conn.Targets a.ep then w.pending else []) ++ (if w.sent a then a.reply.bytes else [])

/-- All bytes of a script. -/
def allBytes (script : List Recv) : Bytes :=
  script.flatMap fun
    | .bytes p => p.bytes
    | _ => []

/-- One attempt, and the wire after it. -/
def step (w : Wire) (a : Attempt) : Outcome HttpResponse × Wire :=
  let (result, conn, unread) := roundTrip w.conn a.ep a.request a.io
  let consumed := (allBytes a.io.recvs).length - (allBytes unread).length
  (result, ⟨conn, (w.incoming a).drop consumed⟩)

/-- The attempt comes back with `e.2`, and what arrives in it is what the server has sent. -/
def Step (w : Wire) (e : Attempt × Outcome HttpResponse) (w' : Wire) : Prop :=
  joined (arrived e.1.io.recvs) <+: w.incoming e.1 ∧ w.step e.1 = (e.2, w') ∧
    ((∃ response, e.2 = .ok response) ∨ ∃ exn, e.2 = .throws exn)

/-- The connection is dropped, or everything sent on it has been read. -/
def Drained (w : Wire) : Prop := w.conn.transport = none ∨ w.pending = []

/-- The response, if there is one, comes from the reply to this very request, and is the whole reply
when the peer does not close early. -/
def Paired (e : Attempt × Outcome HttpResponse) : Prop :=
  ∀ response, e.2 = .ok response →
    ∃ raw, raw <+: e.1.reply.bytes ∧ parseHttpResponse raw = .ok response ∧
      (¬ e.1.ClosedEarly → raw = e.1.reply.bytes ∧ response.body = e.1.reply.body)

/-! ### One attempt -/

variable {w w' : Wire} {e : Attempt × Outcome HttpResponse}

theorem allBytes_append (script more : List Recv) :
    allBytes (script ++ more) = allBytes script ++ allBytes more := List.flatMap_append ..

theorem allBytes_pieces (pieces : List Piece) : allBytes (pieces.map .bytes) = joined pieces :=
  List.flatMap_map ..

/-- On a drained wire nothing but the reply comes in. -/
theorem incoming_drained (hw : w.Drained) (a : Attempt) : w.incoming a <+: a.reply.bytes := by
  have hold : (if w.conn.Targets a.ep then w.pending else []) = [] := by
    split_ifs with htargets
    · rcases hw with hnone | hempty
      · rw [HttpConnection.Targets, hnone] at htargets
        exact absurd htargets.1 (by simp)
      · exact hempty
    · rfl
  rw [incoming, hold, List.nil_append]
  split_ifs
  · exact List.prefix_refl _
  · exact List.nil_prefix

/-- **One attempt on a drained wire** leaves it drained, and its response is the reply. -/
theorem step_drained (hw : w.Drained) (h : Step w e w') : w'.Drained ∧ Paired e := by
  obtain ⟨a, result⟩ := e
  obtain ⟨hdelivers, hstep, hback⟩ := h
  rcases htrip : roundTrip w.conn a.ep a.request a.io with ⟨out, conn', unread⟩
  simp only [step, htrip] at hstep
  obtain ⟨rfl, rfl⟩ := Prod.mk.inj hstep
  rcases hback with ⟨response, hback⟩ | ⟨exn, hback⟩
  · obtain rfl : out = .ok response := hback
    obtain ⟨transport, live, raw, closed, -, -, hread, hparse, hconn⟩ := roundTrip_ok.mp htrip
    obtain ⟨pieces, hraw, hsize, -, hend⟩ := readLoop_ok (by decide) (readFramed_ok.mp hread).1
    rw [List.nil_append] at hraw
    have hpre : raw <+: a.reply.bytes := by
      refine (hraw ▸ ?_ : raw <+: joined (arrived a.io.recvs)).trans
        (hdelivers.trans (incoming_drained hw a))
      rcases hend with ⟨-, -, hscript⟩ | ⟨-, -, r, -, hscript⟩
      · rw [hscript, arrived_append, joined_append]
        exact List.prefix_append _ _
      · rw [hscript, arrived_append, joined_append]
        exact List.prefix_append _ _
    rcases hend with ⟨-, hm, hscript⟩ | ⟨rfl, -, r, hr, hscript⟩
    · have hwhole := (a.reply.messageComplete_iff hpre hsize).mp hm
      refine ⟨.inr ?_, fun response' h => ?_⟩
      · have hle := (incoming_drained hw a).length_le
        rw [← hwhole, hraw] at hle
        refine List.drop_eq_nil_of_le ?_
        rw [hscript, allBytes_append, allBytes_pieces, List.length_append, Nat.add_sub_cancel]
        exact hle
      · cases h
        exact ⟨raw, hpre, hparse, fun _ => ⟨hwhole, a.reply.body_of_parse (hwhole ▸ hparse)⟩⟩
    · refine ⟨.inl ?_, fun response' h => ?_⟩
      · rw [hconn, Bool.true_or, if_pos rfl]
        rfl
      · cases h
        refine ⟨raw, hpre, hparse, fun hnot => ?_⟩
        have hwhole : raw = a.reply.bytes := by
          by_contra hne
          refine hnot ⟨pieces, r, _, hscript, ?_, hraw ▸ hne⟩
          cases r with
          | bytes p => cases transport <;> cases hr
          | zero => exact .inl rfl
          | negative => exact .inr rfl
        exact ⟨hwhole, a.reply.body_of_parse (hwhole ▸ hparse)⟩
  · obtain rfl : out = .throws exn := hback
    exact ⟨.inl (roundTrip_throws htrip), fun response h => by cases h⟩

/-- **Request and response pairing**: over every run, the wire is drained after each attempt, and each
response is parsed from the reply to the request of its own attempt. -/
theorem run_drained {trace : List (Attempt × Outcome HttpResponse)} (w w' : Wire)
    (hrun : Run Step w trace w') (hw : w.Drained) : w'.Drained ∧ ∀ e ∈ trace, Paired e :=
  hrun.safe (fun _ _ _ hw h => step_drained hw h) hw

section Witness

def helloReply : Reply where
  head := fiveHead
  body := str "hello"
  declares := ⟨⟨_, fiveHead_field.mpr rfl⟩, fun _ h => fiveHead_field.mp h ▸ isDecimal_five⟩
  plain := by decide +kernel

def helloAttempt : Attempt :=
  ⟨⟨str "h", 80, [], false⟩, [1], ⟨none, [1], [.bytes helloPiece]⟩, helloReply⟩

def helloWire : Wire := ⟨⟨some .plain, str "h", 80, false⟩, []⟩

def helloResult : Outcome HttpResponse := .ok ⟨200, str "hello", -1⟩

/-- Two attempts on one connection. -/
theorem run_drained_hello : helloWire.Drained ∧
    ∀ e ∈ [(helloAttempt, helloResult), (helloAttempt, helloResult)], Paired e := by
  have hopen : Step ⟨⟨none, [], 0, false⟩, []⟩ (helloAttempt, helloResult) helloWire :=
    ⟨by decide +kernel, by decide +kernel, .inl ⟨_, rfl⟩⟩
  have hreuse : Step helloWire (helloAttempt, helloResult) helloWire :=
    ⟨by decide +kernel, by decide +kernel, .inl ⟨_, rfl⟩⟩
  exact run_drained ⟨⟨none, [], 0, false⟩, []⟩ helloWire (.cons hopen (.cons hreuse (.nil _)))
    (.inl rfl)

end Witness

end Wire

end KserveClient
