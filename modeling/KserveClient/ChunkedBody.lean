import KserveClient.ChunkLoop
import KserveClient.HttpHead

/-!
# KserveClient.ChunkedBody — complete bodies in the chunked coding, and what the decoder takes for one

A `DataChunk` is a chunk by the grammar of the coding: a hexadecimal size line, with an extension or
without, as many bytes, and a line break.  `CompleteBody` says that a body is a list of chunks and a
chunk of size zero.

* `parseHttpResponse_payload`: decoding undoes the coding.
* `parseHttpResponse_complete_iff`: when nothing but complete bodies is returned.
-/

namespace KserveClient

open ListSearch

/-! ### The grammar -/

/-- An extension stands behind a semicolon, with blanks before it; it may be missing. -/
def IsExtension (text : Bytes) : Prop :=
  ∃ blanks rest, text = blanks ++ rest ∧ (∀ c ∈ blanks, IsBlank c) ∧ (rest = [] ∨ str ";" <+: rest)

/-- A size line: the size in hexadecimal digits of either case, and an extension without a line
break. -/
structure HexLine where
  digits : Bytes
  extension : Bytes
  digits_ne : digits ≠ []
  digits_ok : digits.all (Numeral.isDigit 16)
  extension_ok : IsExtension extension
  oneLine : ¬ crlf <:+: extension

namespace HexLine

def size (l : HexLine) : ℕ := Numeral.value 16 l.digits

def text (l : HexLine) : Bytes := l.digits ++ l.extension

end HexLine

/-- A chunk with its data. -/
structure DataChunk where
  line : HexLine
  data : Bytes
  size_eq : line.size = data.length
  data_ne : data ≠ []

def DataChunk.bytes (c : DataChunk) : Bytes := c.line.text ++ crlf ++ c.data ++ crlf

/-- The chunks, and the size line `last` of the last chunk with what follows it. -/
def chunkedBody (chunks : List DataChunk) (last : HexLine) (rest : Bytes) : Bytes :=
  chunks.flatMap DataChunk.bytes ++ (last.text ++ crlf ++ rest)

/-- The body is made of chunks with this data and ended by a chunk of size zero. -/
def CompleteBody (body payload : Bytes) : Prop :=
  ∃ chunks last rest, last.size = 0 ∧ body = chunkedBody chunks last rest ∧
    payload = chunks.flatMap DataChunk.data

/-! ### Size lines -/

/-- The size is read whatever stands behind the digits, if that begins with a semicolon or a blank. -/
theorem chunkSize_digits {digits text : Bytes} (hne : digits ≠ [])
    (hdigits : digits.all (Numeral.isDigit 16)) (htext : ∀ c ∈ text.head?, c = 59 ∨ IsBlank c)
    (hsize : Numeral.value 16 digits < sizeMod) :
    chunkSize (digits ++ text) = .ok (Numeral.value 16 digits) := by
  -- the same for the part of the text before its first semicolon
  have hpart : ∀ j, stoul16 (digits ++ text.take j) = .ok (Numeral.value 16 digits) := by
    intro j
    have hblank : ∀ c ∈ ([] : Bytes), Numeral.isSpace c := by simp
    refine stoul16_of_readInt (Numeral.readInt_digits (by norm_num) hblank hne
      (List.all_eq_true.mp hdigits) ?_) hsize
    intro c hc
    have hstart : c ∈ text.head? := by
      cases text with
      | nil => simp at hc
      | cons d text =>
        cases j with
        | zero => simp at hc
        | succ j => simpa using hc
    rcases htext c hstart with rfl | rfl | rfl <;> decide
  rw [chunkSize]
  cases hsemi : find (str ";") (digits ++ text) with
  | none => simpa using hpart text.length
  | some i =>
    have hskip : find (str ";") (digits ++ text) = (find (str ";") text).map (· + digits.length) := by
      refine find_skip _ fun h => ?_
      exact absurd (List.all_eq_true.mp hdigits 59 h) (by decide)
    rw [hskip] at hsemi
    obtain ⟨j, -, rfl⟩ := Option.map_eq_some_iff.mp hsemi
    have htake : (digits ++ text).take (j + digits.length) = digits ++ text.take j := by
      rw [Nat.add_comm, List.take_length_add_append]
    simp only [htake]
    exact hpart j

/-- Digits contain no line break, and none begins in them. -/
theorem not_crlf_infix {digits text : Bytes} (hdigits : digits.all (Numeral.isDigit 16))
    (htext : ¬ crlf <:+: text) : ¬ crlf <:+: digits ++ text := by
  have hskip : find crlf (digits ++ text) = (find crlf text).map (· + digits.length) := by
    refine find_skip _ fun h => ?_
    exact absurd (List.all_eq_true.mp hdigits 13 h) (by decide)
  rw [← find_eq_none_iff, hskip, find_eq_none_iff.mpr htext, Option.map_none]

namespace HexLine

variable (l : HexLine)

theorem text_ok : ¬ crlf <:+: l.text := not_crlf_infix l.digits_ok l.oneLine

theorem extension_start : ∀ c ∈ l.extension.head?, c = 59 ∨ IsBlank c := by
  obtain ⟨blanks, rest, htext, hblanks, hrest⟩ := l.extension_ok
  rw [htext]
  intro c hc
  cases blanks with
  | cons b blanks =>
    obtain rfl : b = c := by simpa using hc
    exact .inr (hblanks b (by simp))
  | nil =>
    rcases hrest with rfl | ⟨t, rfl⟩
    · simp at hc
    · obtain rfl : (59 : UInt8) = c := by simpa [str] using hc
      exact .inl rfl

theorem chunkSize_text (hsize : l.size < sizeMod) : chunkSize l.text = .ok l.size :=
  chunkSize_digits l.digits_ne l.digits_ok l.extension_start hsize

end HexLine

theorem DataChunk.sized (c : DataChunk) (hsize : c.data.length < sizeMod) :
    Sized c.line.text c.data where
  token_ok := c.line.text_ok
  reads := by
    rw [← c.size_eq] at hsize ⊢
    exact c.line.chunkSize_text hsize
  data_ne := c.data_ne

/-! ### Decoding -/

/-- **Decoding undoes the coding.** -/
theorem dechunk_chunkedBody {chunks : List DataChunk} {last : HexLine} {rest : Bytes}
    (hlast : last.size = 0) (hsize : (chunkedBody chunks last rest).length < maxSize) :
    dechunk (chunkedBody chunks last rest) = .ok (chunks.flatMap DataChunk.data) := by
  have hbytes : chunks.flatMap DataChunk.bytes =
      (chunks.map fun c => (c.line.text, c.data)).flatMap chunkBytes := by
    rw [List.flatMap_map]
    rfl
  have hdata : chunks.flatMap DataChunk.data =
      (chunks.map fun c => (c.line.text, c.data)).flatMap Prod.snd := by
    rw [List.flatMap_map]
  have hzero : chunkSize last.text = .ok 0 := by
    rw [last.chunkSize_text (by rw [hlast]; decide), hlast]
  rw [hdata]
  refine dechunk_chunks ?_ last.text_ok hzero (by rw [chunkedBody, hbytes]) hsize
  rw [List.forall_mem_map]
  intro c hc
  refine c.sized ?_
  obtain ⟨before, after, rfl⟩ := List.append_of_mem hc
  simp only [chunkedBody, List.flatMap_append, List.flatMap_cons, DataChunk.bytes,
    List.length_append, maxSize] at hsize
  rw [sizeMod]
  omega

/-- **The payload of a complete message**: for any head that declares the chunked coding, any payloads,
spellings of the sizes and extensions, and anything behind the last chunk's size line. -/
theorem parseHttpResponse_payload (head : ResponseHead) (version status : Bytes) (hversion : 32 ∉ version)
    (hstatus : status.length = 3 ∧ status.all (Numeral.isDigit 10))
    (hline : version ++ 32 :: (status ++ [32]) <+: head.bytes) (text : Bytes)
    (hfield : HasField head.bytes (str "transfer-encoding") text)
    (htext : str "chunked" <:+: toLower text) (chunks : List DataChunk) (last : HexLine)
    (hlast : last.size = 0) (trailers : Bytes)
    (hsize : (head.bytes ++ crlf2 ++ chunkedBody chunks last trailers).length < maxSize) :
    parseHttpResponse (head.bytes ++ crlf2 ++ chunkedBody chunks last trailers) =
      .ok ⟨Numeral.value 10 status, chunks.flatMap DataChunk.data,
        parseInferenceHeaderLength head.bytes⟩ := by
  have hhead : head.bytes <+: head.bytes ++ crlf2 ++ chunkedBody chunks last trailers := by
    rw [List.append_assoc]
    exact List.prefix_append _ _
  have hbody : (chunkedBody chunks last trailers).length < maxSize := by
    rw [List.length_append] at hsize
    omega
  rw [parseHttpResponse_eq (head.find_terminator _), head.take_bytes, head.drop_bytes,
    parseStatus_of_isPrefix hversion hstatus (hline.trans hhead), Outcome.ok_bind,
    if_pos (looksChunked_of_field hfield htext), dechunk_chunkedBody hlast hbody, Outcome.ok_bind]

section Witness

/-- The field `Transfer-Encoding: chunked`. -/
def chunkedField : Field := ⟨str "Transfer-Encoding", str " chunked", by decide, by decide⟩

def chunkedHead : ResponseHead := .ofFields okLine okLine_ok [chunkedField]

theorem chunkedHead_field : HasField chunkedHead.bytes (str "transfer-encoding") (str " chunked") :=
  (hasField_iff okLine_ok (by decide) _).mpr ⟨_, List.mem_singleton_self _, by decide, rfl⟩

theorem chunkedHead_status : str "HTTP/1.1" ++ 32 :: (str "200" ++ [32]) <+: chunkedHead.bytes :=
  ⟨str "OK" ++ fieldLines [chunkedField], by decide⟩

/-- A chunk with a leading zero, an extension, and data that looks like the end of the body. -/
def hostileChunk : DataChunk where
  line := ⟨str "00A", str " ;x=0", by decide, by decide, ⟨[32], str ";x=0", rfl, by simp [IsBlank],
    .inr ⟨str "x=0", rfl⟩⟩, by decide⟩
  data := str "\r\n0\r\n\r\nabc"
  size_eq := rfl
  data_ne := by decide

theorem zero_ne_nil : str "0" ≠ [] := by decide

theorem zero_digits : (str "0").all (Numeral.isDigit 16) = true := by decide

def lastLine : HexLine :=
  ⟨str "0", [], zero_ne_nil, zero_digits, ⟨[], [], rfl, by simp, .inl rfl⟩, by decide⟩

theorem parseHttpResponse_payload_hostile :
    parseHttpResponse (chunkedHead.bytes ++ crlf2 ++
      chunkedBody [hostileChunk, hostileChunk] lastLine (str "T: 1\r\n\r\n")) =
      .ok ⟨200, str "\r\n0\r\n\r\nabc\r\n0\r\n\r\nabc", -1⟩ :=
  parseHttpResponse_payload chunkedHead (str "HTTP/1.1") (str "200") okLine_version okLine_status
    chunkedHead_status (str " chunked") chunkedHead_field
    ⟨[32], [], by decide⟩ [hostileChunk, hostileChunk] lastLine rfl (str "T: 1\r\n\r\n") (by decide)

end Witness

/-! ### What is accepted -/

theorem find_space_eq_none {raw : Bytes} : find (str " ") raw = none ↔ 32 ∉ raw := by
  rw [find_eq_none_iff, not_iff_not]
  exact List.singleton_infix_iff 32 raw

/-- A status that is read stands behind a space. -/
theorem parseStatus_ok {raw : Bytes} {status : ℤ} (h : parseStatus raw = .ok status) : 32 ∈ raw := by
  by_contra hno
  rw [parseStatus, find_space_eq_none.mpr hno] at h
  cases h

/-- The status is read, or there is no status line, or its number cannot be read. -/
theorem parseStatus_cases (raw : Bytes) : (∃ status, parseStatus raw = .ok status) ∨
    ∃ e, parseStatus raw = .throws e ∧ ((∃ what, e = .runtimeError what) ↔ 32 ∉ raw) := by
  cases hfirst : find (str " ") raw with
  | none =>
    have hthrow : parseStatus raw = throwRuntime (str "invalid HTTP response: no status line") := by
      rw [parseStatus, hfirst]
    exact .inr ⟨_, hthrow, iff_of_true ⟨_, rfl⟩ (find_space_eq_none.mp hfirst)⟩
  | some first =>
    have hspace : ¬ 32 ∉ raw := by
      intro hno
      rw [find_space_eq_none.mpr hno] at hfirst
      cases hfirst
    have hread : ∃ s, parseStatus raw = stoi s := by
      rw [parseStatus, hfirst]
      dsimp only
      split <;> exact ⟨_, rfl⟩
    obtain ⟨s, hread⟩ := hread
    rw [hread]
    rcases stoi_cases s with hok | ⟨e, he, hstoi⟩
    · exact .inl hok
    · refine .inr ⟨e, he, iff_of_false ?_ hspace⟩
      rintro ⟨what, rfl⟩
      rcases hstoi with h | h <;> cases h

/-- A complete body is undone to its payload. -/
theorem dechunk_complete {body payload : Bytes} (h : CompleteBody body payload)
    (hsize : body.length < maxSize) : dechunk body = .ok payload := by
  obtain ⟨chunks, last, rest, hlast, rfl, rfl⟩ := h
  exact dechunk_chunkedBody hlast hsize

/-- **When a chunked response is rejected** with the parser's own error: there is no status line, or the
status is read and the chunk at some place of the loop is truncated. -/
theorem parseHttpResponse_rejects_iff {raw : Bytes} {headerEnd : ℕ} (hend : find crlf2 raw = some headerEnd)
    (hchunked : looksChunked (toLower (raw.take headerEnd)) = true) :
    (∃ what, parseHttpResponse raw = .throws (.runtimeError what)) ↔
      32 ∉ raw ∨ (∃ status, parseStatus raw = .ok status) ∧ Truncated (raw.drop (headerEnd + 4)) := by
  rw [parseHttpResponse_eq hend, if_pos hchunked]
  rcases parseStatus_cases raw with ⟨status, hstatus⟩ | ⟨e, hstatus, hspace⟩
  · rw [hstatus, Outcome.ok_bind, or_iff_right fun hno => hno (parseStatus_ok hstatus),
      and_iff_right ⟨status, rfl⟩]
    constructor
    · rintro ⟨what, h⟩
      refine dechunk_throws_iff.mp ⟨.runtimeError what, ?_⟩
      cases hdecoded : dechunk (raw.drop (headerEnd + 4)) with
      | throws e => rw [hdecoded] at h; cases h; rfl
      | _ => rw [hdecoded] at h; cases h
    · intro htruncated
      rw [dechunk_truncated htruncated]
      exact ⟨_, rfl⟩
  · rw [hstatus, Outcome.throws_bind, or_iff_left]
    · rw [← hspace]
      constructor
      · rintro ⟨what, h⟩
        cases h
        exact ⟨what, rfl⟩
      · rintro ⟨what, rfl⟩
        exact ⟨what, rfl⟩
    · rintro ⟨⟨status, h⟩, -⟩
      cases h

/-- **When nothing but complete bodies is returned**, and every other body rejected: the body is
complete, or there is no status line, or the status is read and the chunk at some place of the loop is
truncated. -/
theorem parseHttpResponse_complete_iff (raw : Bytes) (headerEnd : ℕ)
    (hend : find crlf2 raw = some headerEnd)
    (hchunked : looksChunked (toLower (raw.take headerEnd)) = true) (hsize : raw.length < maxSize)
    (body : Bytes) (hbody : body = raw.drop (headerEnd + 4)) :
    ((∀ response, parseHttpResponse raw = .ok response → CompleteBody body response.body) ∧
      ((¬ ∃ payload, CompleteBody body payload) →
        ∃ what, parseHttpResponse raw = .throws (.runtimeError what))) ↔
    (∃ payload, CompleteBody body payload) ∨ 32 ∉ raw ∨
      (∃ status, parseStatus raw = .ok status) ∧ Truncated body := by
  subst hbody
  by_cases hcomplete : ∃ payload, CompleteBody (raw.drop (headerEnd + 4)) payload
  · refine iff_of_true ⟨fun response hok => ?_, fun hnot => absurd hcomplete hnot⟩ (.inl hcomplete)
    obtain ⟨payload, hpayload⟩ := hcomplete
    have hdecoded := dechunk_complete hpayload (by rw [List.length_drop]; omega)
    rw [parseHttpResponse_eq hend, if_pos hchunked, hdecoded] at hok
    obtain ⟨status, -, hok⟩ := Outcome.bind_eq_ok.mp hok
    cases hok
    exact hpayload
  · -- without a complete body, the message must be rejected
    rw [or_iff_right hcomplete, ← parseHttpResponse_rejects_iff hend hchunked]
    constructor
    · intro h
      exact h.2 hcomplete
    · rintro ⟨what, h⟩
      refine ⟨fun response hok => ?_, fun _ => ⟨what, h⟩⟩
      rw [h] at hok
      cases hok

section Witness

/-- A chunk that claims more data than there is. -/
def truncatedRaw : Bytes := chunkedHead.bytes ++ crlf2 ++ str "5\r\nhi\r\n"

theorem parseHttpResponse_complete_truncated :
    (∀ response, parseHttpResponse truncatedRaw = .ok response →
      CompleteBody (str "5\r\nhi\r\n") response.body) ∧
    ((¬ ∃ payload, CompleteBody (str "5\r\nhi\r\n") payload) →
      ∃ what, parseHttpResponse truncatedRaw = .throws (.runtimeError what)) := by
  have hchunked : looksChunked (toLower (truncatedRaw.take chunkedHead.bytes.length)) = true := by
    rw [truncatedRaw, chunkedHead.take_bytes]
    exact looksChunked_of_field chunkedHead_field ⟨[32], [], by decide⟩
  have hline : SizeAt (str "5\r\nhi\r\n") 0 (str "5") 5 := by
    refine ⟨?_, ?_, ?_⟩ <;> decide
  refine (parseHttpResponse_complete_iff truncatedRaw chunkedHead.bytes.length
    (chunkedHead.find_terminator _) hchunked (by decide) _ (chunkedHead.drop_bytes _).symm).mpr ?_
  exact .inr (.inr ⟨⟨200, by decide +kernel⟩, 0, _, 5, .start, hline, by decide, by decide⟩)

end Witness

/-- A size of zero is spelled with zeros. -/
theorem HexLine.mem_zero {l : HexLine} (h : l.size = 0) : 48 ∈ l.digits := by
  obtain ⟨d, hd⟩ := List.exists_mem_of_ne_nil _ l.digits_ne
  have hzero : Numeral.digitVal d = 0 :=
    Nat.digits_zero_of_eq_zero (by norm_num) h _ (by simpa using ⟨d, hd, rfl⟩)
  obtain rfl : d = 48 := by
    unfold Numeral.digitVal at hzero
    simp only [UInt8.le_iff_toNat_le] at hzero
    rw [← UInt8.toNat_inj]
    simp at hzero ⊢
    split_ifs at hzero <;> omega
  exact hd

/-- **A body that stops behind its first chunk is returned** as if it were complete. -/
theorem parseHttpResponse_partial :
    parseHttpResponse (chunkedHead.bytes ++ crlf2 ++ str "5\r\nhello\r\n") =
      .ok ⟨200, str "hello", -1⟩ ∧
    ¬ ∃ payload, CompleteBody (str "5\r\nhello\r\n") payload := by
  refine ⟨by decide +kernel, ?_⟩
  rintro ⟨payload, chunks, last, rest, hlast, hbody, -⟩
  have hmem : 48 ∈ str "5\r\nhello\r\n" := by
    rw [hbody, chunkedBody, HexLine.text]
    simp [HexLine.mem_zero hlast]
  exact absurd hmem (by decide)

end KserveClient
