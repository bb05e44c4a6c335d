import KserveClient.ChunkedBody
import KserveClient.Framing

/-!
# KserveClient.Chunked — responses in the chunked coding

A `ChunkedResponse` is a response as a server writes it: a head that says `Transfer-Encoding: chunked`,
chunks with any bytes, a last chunk and trailers.  The decoder walks over the chunk sizes, but the
reader only looks for the bytes of an unadorned last chunk, wherever they are.

* `parseHttpResponse_chunked`: the payload of a complete response.
* `readFramed_chunked_iff`: when a response is read exactly.
-/

namespace KserveClient

open ListSearch

/-! ### Responses -/

/-- A size line: hexadecimal digits, and extensions behind a semicolon or blanks. -/
structure SizeLine where
  digits : Bytes
  extension : Bytes
  digits_ne : digits ≠ []
  digits_ok : digits.all (Numeral.isDigit 16)
  extension_start : ∀ c ∈ extension.head?, c = 59 ∨ IsBlank c
  extension_ok : 13 ∉ extension

namespace SizeLine

def size (l : SizeLine) : ℕ := Numeral.value 16 l.digits

def text (l : SizeLine) : Bytes := l.digits ++ l.extension

end SizeLine

/-- A chunk with its data. -/
structure Chunk where
  line : SizeLine
  data : Bytes
  size_eq : line.size = data.length
  data_ne : data ≠ []

def Chunk.bytes (c : Chunk) : Bytes := c.line.text ++ crlf ++ c.data ++ crlf

/-- A response in the chunked coding. -/
structure ChunkedResponse where
  version : Bytes
  status : Bytes
  head : ResponseHead
  version_ok : 32 ∉ version
  status_ok : status.length = 3 ∧ status.all (Numeral.isDigit 10)
  statusLine : version ++ 32 :: (status ++ [32]) <+: head.bytes
  saysChunked : ∃ text, HasField head.bytes (str "transfer-encoding") text ∧
    str "chunked" <:+: toLower text
  chunks : List Chunk
  last : SizeLine
  last_zero : last.size = 0
  trailers : List Field

namespace ChunkedResponse

def body (r : ChunkedResponse) : Bytes :=
  r.chunks.flatMap Chunk.bytes ++ (r.last.text ++ (fieldLines r.trailers ++ crlf2))

def bytes (r : ChunkedResponse) : Bytes := r.head.bytes ++ crlf2 ++ r.body

/-- The data of all chunks. -/
def payload (r : ChunkedResponse) : Bytes := r.chunks.flatMap Chunk.data

end ChunkedResponse

/-! ### Decoding -/

namespace SizeLine

variable (l : SizeLine)

theorem text_ok : ¬ crlf <:+: l.text :=
  not_crlf_infix l.digits_ok fun h => l.extension_ok (h.subset (by simp [crlf]))

theorem chunkSize_text (hsize : l.size < sizeMod) : chunkSize l.text = .ok l.size :=
  chunkSize_digits l.digits_ne l.digits_ok l.extension_start hsize

end SizeLine

theorem Chunk.sized (c : Chunk) (hsize : c.data.length < sizeMod) : Sized c.line.text c.data where
  token_ok := c.line.text_ok
  reads := by
    rw [← c.size_eq] at hsize ⊢
    exact c.line.chunkSize_text hsize
  data_ne := c.data_ne

/-! ### Parsing -/

namespace ChunkedResponse

variable (r : ChunkedResponse)

theorem looksChunked_head : looksChunked (toLower r.head.bytes) = true := by
  obtain ⟨text, hfield, htext⟩ := r.saysChunked
  exact looksChunked_of_field hfield htext

theorem tail_isPrefix : crlf <+: fieldLines r.trailers ++ crlf2 := by
  rcases fieldLines_eq r.trailers with h | h
  · rw [h]
    exact ⟨crlf, rfl⟩
  · exact h.trans (List.prefix_append _ _)

theorem dechunk_body (hsize : r.bytes.length < maxSize) : dechunk r.body = .ok r.payload := by
  have hbody : r.body.length < maxSize := by
    rw [bytes, List.length_append] at hsize
    omega
  obtain ⟨rest, hrest⟩ := r.tail_isPrefix
  have hbytes : r.body = (r.chunks.map fun c => (c.line.text, c.data)).flatMap chunkBytes ++
      (r.last.text ++ crlf ++ rest) := by
    rw [body, ← hrest, List.flatMap_map, List.append_assoc r.last.text]
    rfl
  have hdata : r.payload = (r.chunks.map fun c => (c.line.text, c.data)).flatMap Prod.snd := by
    rw [payload, List.flatMap_map]
  have hzero : chunkSize r.last.text = .ok 0 := by
    rw [r.last.chunkSize_text (by rw [r.last_zero]; decide), r.last_zero]
  rw [hdata]
  refine dechunk_chunks ?_ r.last.text_ok hzero hbytes hbody
  rw [List.forall_mem_map]
  intro c hc
  refine c.sized ?_
  obtain ⟨before, after, hsplit⟩ := List.append_of_mem hc
  simp only [body, hsplit, List.flatMap_append, List.flatMap_cons, Chunk.bytes, List.length_append,
    maxSize] at hbody
  rw [sizeMod]
  omega

/-- **A complete response** is parsed to its payload. -/
theorem parseHttpResponse_chunked (hsize : r.bytes.length < maxSize) :
    ∃ response, parseHttpResponse r.bytes = .ok response ∧ response.body = r.payload := by
  have hhead : r.head.bytes <+: r.head.bytes ++ crlf2 ++ r.body := by
    rw [List.append_assoc]
    exact List.prefix_append _ _
  have hstatus := parseStatus_of_isPrefix r.version_ok r.status_ok (r.statusLine.trans hhead)
  have hend := r.head.find_terminator r.body
  have htake := r.head.take_bytes r.body
  have hdrop := r.head.drop_bytes r.body
  refine ⟨⟨Numeral.value 10 r.status, r.payload, parseInferenceHeaderLength r.head.bytes⟩, ?_, rfl⟩
  rw [bytes, parseHttpResponse_eq hend, hstatus, Outcome.ok_bind, htake, hdrop, if_pos r.looksChunked_head,
    r.dechunk_body hsize, Outcome.ok_bind]

end ChunkedResponse

/-! ### Where the reader stops -/

/-- The bytes that the reader takes for the end of a chunked message. -/
def lastChunkMark : Bytes := crlf ++ str "0" ++ crlf2

/-- A chunked message is complete when the mark is anywhere behind its head. -/
theorem messageComplete_chunked {raw : Bytes} {headerEnd : ℕ} (hend : find crlf2 raw = some headerEnd)
    (hchunked : looksChunked (toLower (raw.take headerEnd)) = true) :
    messageComplete raw = (findFrom lastChunkMark raw headerEnd).isSome := by
  have hlen : headerEnd + 4 ≤ raw.length := find_add_length_le hend
  rw [messageComplete, hend]
  simp only [hchunked, if_true]
  rw [show crlf ++ str "0" ++ crlf2 = lastChunkMark from rfl, Bool.or_eq_left_iff_imp, beq_iff_eq]
  intro hbody
  -- the mark's first line break is then the end of the empty line
  have hdrop : raw.drop headerEnd = crlf ++ lastChunkMark ++ (raw.drop (headerEnd + 4)).drop 5 := by
    obtain ⟨t, ht⟩ := (find_eq_some_iff.mp hend).1
    have hrest : raw.drop (headerEnd + 4) = t := by
      have hcrlf2 : crlf2.length = 4 := rfl
      rw [← List.drop_drop, ← ht, ← hcrlf2, List.drop_left]
    rw [← ht, hrest]
    rw [hrest] at hbody
    conv_lhs => rw [← List.take_append_drop 5 t, hbody]
    rfl
  rw [findFrom, if_pos (by omega), Option.isSome_map, find_isSome_iff, hdrop]
  exact ⟨crlf, (raw.drop (headerEnd + 4)).drop 5, rfl⟩

namespace ChunkedResponse

variable (r : ChunkedResponse)

/-- A prefix of a response counts as complete when it reaches behind the first mark. -/
theorem messageComplete_iff {raw : Bytes} (hraw : raw <+: r.bytes) :
    messageComplete raw = true ↔ ∃ p, findFrom lastChunkMark r.bytes r.head.bytes.length = some p ∧
      p + lastChunkMark.length ≤ raw.length := by
  have hend := r.head.find_terminator r.body
  by_cases hlen : raw.length < r.head.bytes.length + 4
  · rw [messageComplete_short hraw hend hlen]
    refine iff_of_false (by simp) ?_
    rintro ⟨p, hp, hle⟩
    have hmark : lastChunkMark.length = 7 := rfl
    have hpos := (findFrom_add_length_le hp).1
    omega
  · have hle : r.head.bytes.length + 4 ≤ raw.length := Nat.le_of_not_lt hlen
    have hfound := find_restrict hraw hend hle
    have hchunked : looksChunked (toLower (raw.take r.head.bytes.length)) = true := by
      rw [take_head hraw hend hle, bytes, r.head.take_bytes r.body]
      exact r.looksChunked_head
    rw [messageComplete_chunked hfound hchunked]
    cases hp : findFrom lastChunkMark r.bytes r.head.bytes.length with
    | none => simp [findFrom_restrict_none hraw hp]
    | some p =>
      rw [findFrom_restrict_isSome_iff hraw (by omega) hp]
      simp

theorem bytes_ne_nil : r.bytes ≠ [] := by
  simp [bytes, crlf2, crlf]

/-- The reader reads a response from its pieces when it fits and no cut is behind the first mark. -/
theorem readFramed_pieces_iff {pieces : List Piece} (hpieces : joined pieces = r.bytes)
    (transport : Connection) (more : List Recv) :
    readFramed transport (pieces.map .bytes ++ more) = (.ok (r.bytes, false), more) ↔
      r.bytes.length < maxSize ∧ ∃ p, findFrom lastChunkMark r.bytes r.head.bytes.length = some p ∧
        ∀ k < pieces.length, (joined (pieces.take k)).length < p + lastChunkMark.length := by
  rw [readFramed_ok, and_iff_left r.bytes_ne_nil, ← hpieces, readLoop_exact_iff, hpieces]
  refine and_congr_right fun _ => ?_
  have hpre : ∀ k, joined (pieces.take k) <+: r.bytes := fun k => hpieces ▸ joined_take_isPrefix pieces k
  constructor
  · rintro ⟨hm, hopen⟩
    obtain ⟨p, hp, -⟩ := (r.messageComplete_iff (List.prefix_refl _)).mp hm
    refine ⟨p, hp, fun k hk => ?_⟩
    by_contra hcut
    have hm' := (r.messageComplete_iff (hpre k)).mpr ⟨p, hp, Nat.le_of_not_lt hcut⟩
    rw [hopen k hk] at hm'
    cases hm'
  · rintro ⟨p, hp, hcuts⟩
    refine ⟨(r.messageComplete_iff (List.prefix_refl _)).mpr
      ⟨p, hp, (findFrom_add_length_le hp).2⟩, fun k hk => ?_⟩
    rw [← Bool.not_eq_true, r.messageComplete_iff (hpre k)]
    rintro ⟨q, hq, hle⟩
    rw [hp] at hq
    cases hq
    have hcut := hcuts k hk
    omega

end ChunkedResponse

/-- **When a chunked response is read exactly**: it fits, and no place at which its bytes are cut lies
behind the first occurrence of the mark, which must exist. -/
theorem readFramed_chunked_iff (r : ChunkedResponse) (pieces : List Piece)
    (hpieces : joined pieces = r.bytes) :
    ((∀ transport more, readFramed transport (pieces.map .bytes ++ more) =
        (.ok (r.bytes, false), more)) ∧
      ∀ conn ep request connect sends more transport live,
        ensureConnected conn ep connect = (.ok transport, live) →
        sendAll transport request sends = .ok () →
        ∃ response conn', roundTrip conn ep request ⟨connect, sends, pieces.map .bytes ++ more⟩ =
          (.ok response, conn', more) ∧ response.body = r.payload) ↔
    r.bytes.length < maxSize ∧ ∃ p, findFrom lastChunkMark r.bytes r.head.bytes.length = some p ∧
      ∀ k < pieces.length, (joined (pieces.take k)).length < p + lastChunkMark.length := by
  constructor
  · intro h
    exact (r.readFramed_pieces_iff hpieces .plain []).mp (h.1 .plain [])
  · intro h
    have hread := fun transport more => (r.readFramed_pieces_iff hpieces transport more).mpr h
    refine ⟨hread, fun conn ep request connect sends more transport live hopen hsend => ?_⟩
    obtain ⟨response, hparse, hbody⟩ := r.parseHttpResponse_chunked h.1
    exact ⟨response, _, roundTrip_ok.mpr ⟨transport, live, r.bytes, false, hopen, hsend,
      hread transport more, hparse, rfl⟩, hbody⟩

section Witness

theorem chunkedHead_chunked : ∃ text, HasField chunkedHead.bytes (str "transfer-encoding") text ∧
    str "chunked" <:+: toLower text :=
  ⟨_, chunkedHead_field, ⟨[32], [], by decide⟩⟩

/-- Two chunks; the data of the first and the line break behind it hold the mark. -/
def markedResponse : ChunkedResponse where
  version := str "HTTP/1.1"
  status := str "200"
  head := chunkedHead
  version_ok := okLine_version
  status_ok := okLine_status
  statusLine := chunkedHead_status
  saysChunked := chunkedHead_chunked
  chunks := [
    ⟨⟨str "6", [], by decide, by decide, by simp, by simp⟩, str "x\r\n0\r\n", rfl, by decide⟩,
    ⟨⟨str "3", [], by decide, by decide, by simp, by simp⟩, str "abc", rfl, by decide⟩]
  last := ⟨str "0", [], zero_ne_nil, zero_digits, by simp, by simp⟩
  last_zero := rfl
  trailers := []

def markedPiece : Piece := ⟨markedResponse.bytes, by decide, by decide⟩

/-- Read in one piece, the response is read exactly. -/
theorem readFramed_chunked_marked :
    readFramed .plain [.bytes markedPiece, .bytes markedPiece] =
      (.ok (markedResponse.bytes, false), [.bytes markedPiece]) := by
  refine ((readFramed_chunked_iff markedResponse [markedPiece] ?_).mpr ⟨?_, ?_⟩).1 .plain
    [.bytes markedPiece]
  · simp [markedPiece]
  · decide +kernel
  · refine ⟨51, by decide +kernel, ?_⟩
    intro k hk
    obtain rfl : k = 0 := by simpa using hk
    decide

end Witness

/-- The response, cut behind the first chunk. -/
def firstPiece : Piece :=
  ⟨chunkedHead.bytes ++ crlf2 ++ str "6\r\nx\r\n0\r\n\r\n", by decide, by decide⟩

def secondPiece : Piece := ⟨str "3\r\nabc\r\n0\r\n\r\n", by decide, by decide⟩

/-- **A chunk that holds the mark ends the message**: the second chunk stays on the connection, which is
kept, and the body is returned without it. -/
theorem roundTrip_marked :
    joined [firstPiece, secondPiece] = markedResponse.bytes ∧
    markedResponse.payload = str "x\r\n0\r\nabc" ∧
    roundTrip ⟨none, [], 0, false⟩ ⟨str "h", 80, [], false⟩ [1]
      ⟨none, [1], [.bytes firstPiece, .bytes secondPiece]⟩ =
      (.ok ⟨200, str "x\r\n0\r\n", -1⟩, ⟨some .plain, str "h", 80, false⟩, [.bytes secondPiece]) := by
  decide +kernel

end KserveClient
