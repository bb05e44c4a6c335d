import KserveClient.ContentLength
import KserveClient.FieldLookup

/-!
# KserveClient.Persistence — connections that the server ends

A head ends persistence by the option `close` in a `Connection` field, or by being of HTTP/1.0 without the
option `keep-alive` (`EndsPersistence`).  The client looks for one spelling of the first and not for the
second.

* `wantsClose_iff`: what the substring search finds, line by line.
* `roundTrip_persistence_iff`: after which responses a connection that the server ends is dropped.
-/

namespace KserveClient

open ListSearch HttpSyntax

/-! ### What the head says -/

/-- The options of the `Connection` fields, in lower case. -/
def connectionOptions (fields : List Field) : List Bytes :=
  (fields.filter fun f => f.named (str "connection")).flatMap fun f =>
    (f.value.splitOn 44).map fun option => toLower (trimBlanks option)

/-- The option `close`, or HTTP/1.0 without the option `keep-alive`. -/
def EndsPersistence (line : Bytes) (fields : List Field) : Prop :=
  str "close" ∈ connectionOptions fields ∨
  line.takeWhile (· != 32) = str "HTTP/1.0" ∧ str "keep-alive" ∉ connectionOptions fields

instance (line : Bytes) (fields : List Field) : Decidable (EndsPersistence line fields) :=
  inferInstanceAs (Decidable (_ ∨ _ ∧ _))

/-! ### What the client sees -/

section Search

variable {line : Bytes} {fields : List Field}

/-- `connection: close`, in any case: in the status line, at the end of a name and the start of its value,
or in a value. -/
def MentionsClose (line : Bytes) (fields : List Field) : Prop :=
  str "connection: close" <:+: toLower line ∨
  ∃ f ∈ fields, str "connection" <:+ toLower f.name ∧ str " close" <+: toLower f.value ∨
    str "connection: close" <:+: toLower f.value

theorem mentionsClose_iff (line : Bytes) (fields : List Field) :
    str "connection: close" <:+: toLower (line ++ fieldLines fields) ↔ MentionsClose line fields := by
  have hmark : str "connection: close" = str "connection" ++ 58 :: str " close" := rfl
  have hne : str "connection: close" ≠ [] := List.cons_ne_nil _ _
  have hcr : 13 ∉ str "connection: close" ∧ 10 ∉ str "connection: close" := by decide
  have hfield : ∀ f : Field, str "connection: close" <:+: f.line ↔
      str "connection" <:+ f.name ∧ str " close" <+: f.value ∨ str "connection: close" <:+: f.value := by
    intro f
    rw [Field.line, infix_cons_iff_of_not_mem hne hcr.2, hmark, infix_mark_iff (by decide) f.name_ok.2]
  unfold MentionsClose
  rw [toLower_head, infix_lines hne hcr.1]
  simp only [hfield, List.mem_map, exists_exists_and_eq_and]
  rfl

theorem wantsClose_iff {raw : Bytes} {headerEnd : ℕ} (hend : find crlf2 raw = some headerEnd)
    (hhead : raw.take headerEnd = line ++ fieldLines fields) :
    wantsClose raw = true ↔ MentionsClose line fields := by
  unfold wantsClose
  rw [hend]
  dsimp only
  rw [hhead, find_isSome_iff, mentionsClose_iff]

end Search

/-! ### After the response -/

section RoundTrip

/-- At no place where the arriving bytes are cut, their end included, is the message complete: the reader
goes on until the peer closes. -/
def NeverComplete (script : List Recv) : Prop :=
  ∀ k, messageComplete (joined ((arrived script).take k)) = false

theorem readFramed_closed {transport : Connection} {script rest : List Recv} {raw : Bytes} {closed : Bool}
    (h : readFramed transport script = (.ok (raw, closed), rest)) :
    closed = true ↔ NeverComplete script := by
  obtain ⟨pieces, hraw, -, hopen, hend⟩ := readLoop_ok (by decide) (readFramed_ok.mp h).1
  simp only [List.nil_append] at hraw hopen
  rcases hend with ⟨rfl, hm, rfl⟩ | ⟨rfl, hm, r, hr, rfl⟩
  · refine iff_of_false Bool.false_ne_true fun hnever => ?_
    have hcut := hnever pieces.length
    rw [arrived_append, List.take_left, ← hraw, hm] at hcut
    cases hcut
  · refine iff_of_true rfl fun k => ?_
    rw [arrived_append, arrived_of_zero hr, List.append_nil]
    by_cases hk : k < pieces.length
    · exact hopen k hk
    · rw [List.take_of_length_le (not_lt.mp hk), ← hraw, hm]

theorem ensureConnected_transport {conn live : HttpConnection} {ep : Endpoint} {connect : Option Exn}
    {transport : Connection} (h : ensureConnected conn ep connect = (.ok transport, live)) :
    live.transport = some transport := by
  have hnew : ∀ c : HttpConnection, reconnect c ep connect = (.ok transport, live) →
      live.transport = some transport := by
    intro c hc
    unfold reconnect at hc
    cases connect with
    | some e => cases hc
    | none => cases hc; rfl
  unfold ensureConnected at h
  cases hconn : conn.transport with
  | none =>
    rw [hconn] at h
    exact hnew conn h
  | some old =>
    rw [hconn] at h
    dsimp only at h
    split_ifs at h with hsame
    · cases h
      exact hconn
    · exact hnew conn h

/-- **When an ended connection is dropped**: the search finds `connection: close`, or the peer closes
first. -/
theorem roundTrip_persistence_iff (conn conn' : HttpConnection) (ep : Endpoint) (request : Bytes)
    (io : AttemptIo) (response : HttpResponse) (unread : List Recv)
    (hok : roundTrip conn ep request io = (.ok response, conn', unread)) (line : Bytes)
    (fields : List Field) (hline : 13 ∉ line)
    (hhead : line ++ fieldLines fields ++ crlf2 <+: joined (arrived io.recvs)) :
    (EndsPersistence line fields → conn'.transport = none) ↔
      (EndsPersistence line fields → MentionsClose line fields ∨ NeverComplete io.recvs) := by
  obtain ⟨transport, live, raw, closed, hopen, -, hread, hparse, rfl⟩ := roundTrip_ok.mp hok
  obtain ⟨m, -, hraw, -⟩ := readFramed_arrived hread
  obtain ⟨body, hbody⟩ := hhead
  -- the head of the message is the head of what was read
  have hpre : raw <+: joined (arrived io.recvs) := hraw ▸ joined_take_isPrefix _ m
  have hfind : find crlf2 (joined (arrived io.recvs)) = some (line ++ fieldLines fields).length := by
    rw [← hbody]
    exact (ResponseHead.ofFields line hline fields).find_terminator body
  have hend := find_terminator_of_parse hparse hpre hfind
  have htake : raw.take (line ++ fieldLines fields).length = line ++ fieldLines fields := by
    rw [take_head hpre hfind (find_add_length_le hend), ← hbody]
    exact (ResponseHead.ofFields line hline fields).take_bytes body
  have hlive := ensureConnected_transport hopen
  have hdrop : (if (closed || wantsClose raw) = true then live.drop else live).transport = none ↔
      MentionsClose line fields ∨ NeverComplete io.recvs := by
    rw [← wantsClose_iff hend htake, ← readFramed_closed hread, or_comm, ← Bool.or_eq_true]
    split_ifs with hclose
    · exact iff_of_true rfl hclose
    · rw [hlive]
      exact iff_of_false (by simp) hclose
  rw [hdrop]

end RoundTrip

section Witness

/-- A field `Connection` with the value `value`. -/
def connectionField (value : Bytes) (hvalue : 13 ∉ value) : Field :=
  ⟨str "Connection", value, by decide, hvalue⟩

theorem close_ok : 13 ∉ str " close" := by decide

theorem closeBare_ok : 13 ∉ str "close" := by decide

theorem zero_ok : 13 ∉ str " 0" := by decide

/-- `Connection: close` with a body of no bytes. -/
def closeFields : List Field := [connectionField (str " close") close_ok, lengthField (str " 0") zero_ok]

/-- The same without the optional blank. -/
def closeBareFields : List Field :=
  [connectionField (str "close") closeBare_ok, lengthField (str " 0") zero_ok]

def closePiece : Piece := ⟨okLine ++ fieldLines closeFields ++ crlf2, by decide, by decide⟩

def closeBarePiece : Piece := ⟨okLine ++ fieldLines closeBareFields ++ crlf2, by decide, by decide⟩

/-- The spelling that the client looks for. -/
theorem roundTrip_persistence_close :
    EndsPersistence okLine closeFields ∧
      (roundTrip ⟨none, [], 0, false⟩ ⟨str "h", 80, [], false⟩ [1]
        ⟨none, [1], [.bytes closePiece]⟩).2.1.transport = none := by
  have hends : EndsPersistence okLine closeFields := by decide
  have hok : roundTrip ⟨none, [], 0, false⟩ ⟨str "h", 80, [], false⟩ [1]
      ⟨none, [1], [.bytes closePiece]⟩ = (.ok ⟨200, [], -1⟩, ⟨none, [], 0, false⟩, []) := by
    decide +kernel
  have hhead : okLine ++ fieldLines closeFields ++ crlf2 <+: joined (arrived [.bytes closePiece]) :=
    ⟨[], by simp [arrived, closePiece]⟩
  rw [hok]
  refine ⟨hends, (roundTrip_persistence_iff _ _ _ _ _ _ _ hok okLine closeFields okLine_ok hhead).mpr ?_ hends⟩
  exact fun _ => .inl (.inr ⟨_, List.mem_cons_self, .inl ⟨by decide, by decide⟩⟩)

/-- **Without the blank, the connection is kept**, although the field has the option `close`. -/
theorem roundTrip_keeps_ended :
    EndsPersistence okLine closeBareFields ∧
    okLine ++ fieldLines closeBareFields ++ crlf2 <+: joined (arrived [.bytes closeBarePiece]) ∧
    roundTrip ⟨none, [], 0, false⟩ ⟨str "h", 80, [], false⟩ [1] ⟨none, [1], [.bytes closeBarePiece]⟩ =
      (.ok ⟨200, [], -1⟩, ⟨some .plain, str "h", 80, false⟩, []) :=
  ⟨by decide, ⟨[], by simp [arrived, closeBarePiece]⟩, by decide +kernel⟩

end Witness

end KserveClient
