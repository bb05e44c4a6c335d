import KserveClient.HttpHead

/-!
# KserveClient.Framing — where the framed reader stops

`readLoop_pieces` runs the reader over pieces that leave the message incomplete, and `readLoop_ok` says
what was read when it returns; `readLoop_exact_iff` is the reader on the pieces of one message.  The
`roundTrip` lemmas relate an attempt to what its reader returned.
-/

namespace KserveClient

open ListSearch

/-- The bytes of some pieces. -/
def joined (pieces : List Piece) : Bytes := pieces.flatMap Piece.bytes

@[simp] theorem joined_nil : joined [] = [] := rfl

@[simp] theorem joined_cons (p : Piece) (pieces : List Piece) :
    joined (p :: pieces) = p.bytes ++ joined pieces := rfl

theorem joined_append (pieces more : List Piece) :
    joined (pieces ++ more) = joined pieces ++ joined more := List.flatMap_append ..

theorem joined_take_isPrefix (pieces : List Piece) (k : ℕ) : joined (pieces.take k) <+: joined pieces := by
  conv_rhs => rw [← List.take_append_drop k pieces, joined_append]
  exact List.prefix_append _ _

theorem joined_take_mono (pieces : List Piece) {m k : ℕ} (h : m ≤ k) :
    joined (pieces.take m) <+: joined (pieces.take k) := by
  rw [← Nat.min_eq_left h, ← List.take_take]
  exact joined_take_isPrefix _ m

theorem joined_eq_nil_iff {pieces : List Piece} : joined pieces = [] ↔ pieces = [] := by
  cases pieces with
  | nil => simp
  | cons p pieces => simp [p.ne_nil]

/-- As pieces are not empty, every cut leaves something out. -/
theorem joined_take_ne {pieces : List Piece} {k : ℕ} (hk : k < pieces.length) :
    joined (pieces.take k) ≠ joined pieces := by
  intro h
  rw [← List.take_append_drop k pieces, joined_append, List.take_append_drop, eq_comm,
    List.append_right_eq_self, joined_eq_nil_iff, List.drop_eq_nil_iff] at h
  omega

/-! ### The reader -/

section Reader

variable {conn : Connection} {pieces : List Piece} {script rest : List Recv} {raw before : Bytes}

/-- The reader goes on while the message is incomplete. -/
theorem readLoop_pieces (hsize : (before ++ joined pieces).length < maxSize)
    (hopen : ∀ k < pieces.length, messageComplete (before ++ joined (pieces.take k)) = false) :
    readLoop conn (pieces.map .bytes ++ rest) before = readLoop conn rest (before ++ joined pieces) := by
  induction pieces generalizing before with
  | nil => simp
  | cons p pieces ih =>
    have hfirst : messageComplete before = false := by simpa using hopen 0 (by simp)
    have hrecv : recvSome conn (.bytes p) = .bytes p := by cases conn <;> rfl
    have hfits : before.length + p.bytes.length < maxSize := by
      simp only [joined_cons, List.length_append] at hsize
      omega
    rw [List.map_cons, List.cons_append, readLoop, if_neg (by simp [hfirst]), hrecv]
    simp only
    rw [if_pos hfits, ih (by simpa using hsize), joined_cons, List.append_assoc]
    intro k hk
    simpa using hopen (k + 1) (by simpa using hk)

/-- **What was read** when the reader returns: whole pieces, up to the first at which the message is
complete or up to the end of input. -/
theorem readLoop_ok {closed : Bool} (hsize : before.length < maxSize)
    (h : readLoop conn script before = (.ok (raw, closed), rest)) :
    ∃ pieces, raw = before ++ joined pieces ∧ raw.length < maxSize ∧
      (∀ k < pieces.length, messageComplete (before ++ joined (pieces.take k)) = false) ∧
      (closed = false ∧ messageComplete raw = true ∧ script = pieces.map .bytes ++ rest ∨
        closed = true ∧ messageComplete raw = false ∧
          ∃ r, recvSome conn r = .zero ∧ script = pieces.map .bytes ++ r :: rest) := by
  induction script generalizing before with
  | nil =>
    rw [readLoop] at h
    split_ifs at h with hcomplete
    · cases h
      exact ⟨[], by simp, hsize, by simp, .inl ⟨rfl, hcomplete, rfl⟩⟩
    · cases h
  | cons r script ih =>
    rw [readLoop] at h
    split_ifs at h with hcomplete
    · cases h
      exact ⟨[], by simp, hsize, by simp, .inl ⟨rfl, hcomplete, rfl⟩⟩
    · have hopen : messageComplete before = false := by simpa using hcomplete
      cases hr : recvSome conn r with
      | negative => rw [hr] at h; cases h
      | zero =>
        rw [hr] at h
        cases h
        exact ⟨[], by simp, hsize, by simp, .inr ⟨rfl, hopen, r, hr, rfl⟩⟩
      | bytes p =>
        rw [hr] at h
        obtain rfl : r = .bytes p := by
          cases r with
          | bytes q => cases conn <;> simpa [recvSome] using hr
          | zero => cases conn <;> simp [recvSome] at hr
          | negative => cases conn <;> simp [recvSome] at hr
        simp only at h
        split_ifs at h with hfits
        · obtain ⟨pieces, hraw, hlen, hbefore, hend⟩ := ih (by simpa using hfits) h
          refine ⟨p :: pieces, by simpa using hraw, hlen, ?_, ?_⟩
          · intro k hk
            cases k with
            | zero => simpa using hopen
            | succ k => simpa using hbefore k (by simpa using hk)
          · rcases hend with ⟨hc, hm, rfl⟩ | ⟨hc, hm, r, hr, rfl⟩
            · exact .inl ⟨hc, hm, rfl⟩
            · exact .inr ⟨hc, hm, r, hr, rfl⟩
        · cases h

/-- **The reader on one message**: it reads exactly the message, whatever follows, when that fits, is
complete as a whole and at no earlier place where the bytes were cut. -/
theorem readLoop_exact_iff :
    readLoop conn (pieces.map .bytes ++ rest) [] = (.ok (joined pieces, false), rest) ↔
      (joined pieces).length < maxSize ∧ messageComplete (joined pieces) = true ∧
        ∀ k < pieces.length, messageComplete (joined (pieces.take k)) = false := by
  constructor
  · intro h
    obtain ⟨read, hraw, hlen, hopen, hend⟩ := readLoop_ok (by decide) h
    rcases hend with ⟨-, hm, hscript⟩ | ⟨hc, -⟩
    · obtain rfl := List.map_injective_iff.mpr (fun _ _ => Recv.bytes.inj)
        (List.append_cancel_right hscript)
      exact ⟨hlen, hm, hopen⟩
    · cases hc
  · rintro ⟨hlen, hm, hopen⟩
    have h := @readLoop_pieces conn pieces rest [] hlen hopen
    rw [List.nil_append] at h
    rw [h]
    cases rest with
    | nil => rw [readLoop, if_pos hm]
    | cons r rest => rw [readLoop, if_pos hm]

theorem readFramed_ok {closed : Bool} :
    readFramed conn script = (.ok (raw, closed), rest) ↔
      readLoop conn script [] = (.ok (raw, closed), rest) ∧ raw ≠ [] := by
  rw [readFramed]
  rcases readLoop conn script [] with ⟨result, left⟩
  cases result with
  | ok read =>
    obtain ⟨raw', closed'⟩ := read
    by_cases hraw : raw' = []
    · simp only [Outcome.ok_bind, hraw, if_true]
      constructor
      · intro h
        cases h
      · rintro ⟨h, hne⟩
        cases h
        exact absurd rfl hne
    · simp only [Outcome.ok_bind, hraw, if_false]
      constructor
      · intro h
        cases h
        exact ⟨rfl, hraw⟩
      · rintro ⟨h, -⟩
        cases h
        rfl
  | _ =>
    refine iff_of_false (fun h => ?_) fun h => ?_
    · cases h
    · cases h.1

end Reader

/-! ### One attempt -/

section Attempt

variable {conn conn' : HttpConnection} {ep : Endpoint} {request : Bytes} {io : AttemptIo}
  {unread : List Recv}

theorem exchange_ok {transport : Connection} {sends : List ℤ} {recvs : List Recv}
    {response : HttpResponse} {close : Bool} :
    exchange transport request sends recvs = (.ok (response, close), unread) ↔
      sendAll transport request sends = .ok () ∧ ∃ raw closed,
        readFramed transport recvs = (.ok (raw, closed), unread) ∧
        parseHttpResponse raw = .ok response ∧ close = (closed || wantsClose raw) := by
  rw [exchange]
  cases sendAll transport request sends with
  | ok sent =>
    rw [Outcome.ok_andThen]
    rcases readFramed transport recvs with ⟨result, left⟩
    constructor
    · intro h
      obtain ⟨hresult, rfl⟩ := Prod.mk.inj h
      obtain ⟨⟨raw, closed⟩, rfl, hparse⟩ := Outcome.bind_eq_ok.mp hresult
      obtain ⟨r, hr, hpure⟩ := Outcome.bind_eq_ok.mp hparse
      cases hpure
      exact ⟨rfl, raw, closed, rfl, hr, rfl⟩
    · rintro ⟨-, raw, closed, hread, hparse, rfl⟩
      cases hread
      simp only [Outcome.ok_bind, hparse]
      rfl
  | _ =>
    refine iff_of_false (fun h => ?_) fun h => ?_
    · cases h
    · cases h.1

/-- **An attempt returns** when it gets a connection, sends everything, and reads what it can parse. -/
theorem roundTrip_ok {response : HttpResponse} :
    roundTrip conn ep request io = (.ok response, conn', unread) ↔
      ∃ transport live raw closed,
        ensureConnected conn ep io.connect = (.ok transport, live) ∧
        sendAll transport request io.sends = .ok () ∧
        readFramed transport io.recvs = (.ok (raw, closed), unread) ∧
        parseHttpResponse raw = .ok response ∧
        conn' = if closed || wantsClose raw then live.drop else live := by
  rw [roundTrip]
  rcases ensureConnected conn ep io.connect with ⟨opened, live⟩
  cases opened with
  | ok transport =>
    simp only [Outcome.ok_andThen]
    constructor
    · intro h
      obtain ⟨hresult, hrest⟩ := Prod.mk.inj h
      obtain ⟨hafter, hunread⟩ := Prod.mk.inj hrest
      obtain ⟨⟨r, close⟩, hexchange, rfl⟩ := Outcome.map_eq_ok.mp hresult
      obtain ⟨hsend, raw, closed, hread, hparse, rfl⟩ := exchange_ok.mp (Prod.ext hexchange hunread)
      rw [hexchange] at hafter
      exact ⟨transport, live, raw, closed, rfl, hsend, hread, hparse, hafter.symm⟩
    · rintro ⟨transport', live', raw, closed, hopen, hsend, hread, hparse, rfl⟩
      cases hopen
      rw [exchange_ok.mpr ⟨hsend, raw, closed, hread, hparse, rfl⟩]
      rfl
  | _ =>
    refine iff_of_false (fun h => ?_) fun h => ?_
    · cases h
    · obtain ⟨_, _, _, _, h, -⟩ := h
      cases h

/-- An attempt that returns has parsed what its reader read. -/
theorem roundTrip_read {response : HttpResponse} (h : (roundTrip conn ep request io).1 = .ok response) :
    ∃ transport raw closed,
      (readFramed transport io.recvs).1 = .ok (raw, closed) ∧ parseHttpResponse raw = .ok response := by
  obtain ⟨transport, live, raw, closed, -, -, hread, hparse, -⟩ := roundTrip_ok.mp (Prod.ext h rfl)
  exact ⟨transport, raw, closed, congrArg Prod.fst hread, hparse⟩

/-- An attempt whose response is lost does not return. -/
theorem roundTrip_lost {connect : Option Exn} {sends : List ℤ} {response : HttpResponse} :
    (roundTrip conn ep request ⟨connect, sends, [.zero]⟩).1 ≠ .ok response := by
  intro h
  obtain ⟨transport, raw, closed, hread, -⟩ := roundTrip_read h
  have hempty : (readFramed transport [.zero]).1 =
      .throws (.runtimeError (str "HTTP read failed: empty response")) := by
    cases transport <;> decide +kernel
  rw [hempty] at hread
  cases hread

/-- A whole response that comes in one piece, and what it says. -/
structure WholeResponse (response : HttpResponse) where
  piece : Piece
  framed : ∀ transport, readFramed transport [.bytes piece] = (.ok (piece.bytes, false), [])
  parsed : parseHttpResponse piece.bytes = .ok response

/-- An attempt that receives a whole response returns it. -/
theorem roundTrip_whole {connect : Option Exn} {sends : List ℤ} {response r : HttpResponse}
    (whole : WholeResponse response)
    (h : (roundTrip conn ep request ⟨connect, sends, [.bytes whole.piece]⟩).1 = .ok r) : r = response := by
  obtain ⟨transport, raw, closed, hread, hparse⟩ := roundTrip_read h
  rw [whole.framed transport] at hread
  cases hread
  rw [whole.parsed] at hparse
  exact (Outcome.ok.inj hparse).symm

theorem after_of_throws {out : Outcome (HttpResponse × Bool)} {e : Exn}
    (h : Prod.fst <$> out = .throws e) : (conn.after out).transport = none := by
  cases out with
  | throws e' => rfl
  | _ => cases h

/-- An attempt that throws leaves the connection dropped. -/
theorem roundTrip_throws {e : Exn} (h : roundTrip conn ep request io = (.throws e, conn', unread)) :
    conn'.transport = none := by
  obtain ⟨hresult, hrest⟩ := Prod.mk.inj h
  obtain ⟨rfl, -⟩ := Prod.mk.inj hrest
  exact after_of_throws hresult

end Attempt

end KserveClient
