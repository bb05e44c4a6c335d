import KserveClient.ChunkedBody

/-!
# KserveClient.StatusLine — the status line, and how a malformed response is reported

* `IsStatusLine` is the grammar of a status line; `parseStatus_statusLine` says that the parser reads the
  number of one.
* `parseHttpResponse_reports_iff`: for which messages the parser returns the number of a status line or
  throws its own `std::runtime_error`.
-/

namespace KserveClient

open ListSearch

/-! ### The grammar -/

section Grammar

/-- The text before the first CRLF. -/
def firstLine (raw : Bytes) : Bytes :=
  match find crlf raw with
  | some lineEnd => raw.take lineEnd
  | none => raw

/-- `HTTP/` and two digits with a dot between them. -/
def IsVersion (version : Bytes) : Prop :=
  ∃ major minor, Numeral.isDigit 10 major ∧ Numeral.isDigit 10 minor ∧
    version = str "HTTP/" ++ [major, 46, minor]

/-- A version, a space, a number of three digits, and nothing, or a space and a reason. -/
def IsStatusLine (line : Bytes) (status : ℤ) : Prop :=
  ∃ version code reason, line = version ++ 32 :: (code ++ reason) ∧ IsVersion version ∧
    code.length = 3 ∧ (∀ d ∈ code, Numeral.isDigit 10 d) ∧ (reason = [] ∨ ∃ t, reason = 32 :: t) ∧
    status = Numeral.value 10 code

end Grammar

/-! ### The number that is read -/

section Reading

variable {raw : Bytes} {status : ℤ}

theorem IsVersion.space_not_mem {version : Bytes} (h : IsVersion version) : 32 ∉ version := by
  obtain ⟨major, minor, hmajor, hminor, rfl⟩ := h
  rw [List.mem_append, not_or]
  refine ⟨by decide, ?_⟩
  simp [Ne.symm (isDigit_ne_space hmajor), Ne.symm (isDigit_ne_space hminor)]

/-- The first line, and a CRLF unless that is all. -/
theorem firstLine_split (raw : Bytes) :
    ∃ rest, raw = firstLine raw ++ rest ∧ (rest = [] ∨ ∃ t, rest = 13 :: t) := by
  unfold firstLine
  cases hend : find crlf raw with
  | none => exact ⟨[], (List.append_nil raw).symm, .inl rfl⟩
  | some lineEnd =>
    refine ⟨crlf ++ raw.drop (lineEnd + crlf.length), ?_, .inr ⟨_, rfl⟩⟩
    rw [← List.append_assoc]
    exact find_split hend

/-- **The number of a status line is read**: it ends at the space in front of the reason, or with the
line. -/
theorem parseStatus_statusLine (h : IsStatusLine (firstLine raw) status) :
    parseStatus raw = .ok status := by
  obtain ⟨version, code, reason, hline, hversion, hlen, hcode, hreason, rfl⟩ := h
  obtain ⟨rest, hraw, hrest⟩ := firstLine_split raw
  rw [hline] at hraw
  have hsplit : raw = version ++ 32 :: (code ++ (reason ++ rest)) := by
    rw [hraw]
    simp
  have hspace : 32 ∈ raw := by
    rw [hsplit]
    simp
  -- what follows the code does not go on with a digit
  obtain ⟨tail, htail, hstop⟩ : ∃ tail, secondField raw = code ++ tail ∧
      ∀ c ∈ tail.head?, Numeral.isDigit 10 c = false ∧ c ≠ 120 ∧ c ≠ 88 := by
    unfold secondField
    rw [hsplit, dropWhile_letter hversion.space_not_mem, List.drop_succ_cons, List.drop_zero,
      List.takeWhile_append_of_pos (bne_of_not_mem fun hmem => isDigit_ne_space (hcode _ hmem) rfl)]
    rcases hreason with rfl | ⟨t, rfl⟩
    · rcases hrest with rfl | ⟨t, rfl⟩
      · exact ⟨[], rfl, by simp⟩
      · refine ⟨13 :: t.takeWhile (· != 32), ?_, ?_⟩
        · rw [List.nil_append, List.takeWhile_cons_of_pos (by decide)]
        · simp [Numeral.isDigit, Numeral.digitVal]
    · exact ⟨[], by rw [List.cons_append, List.takeWhile_cons_of_neg (by decide)], by simp⟩
  rw [parseStatus_eq hspace, htail]
  exact stoi_code hlen hcode hstop

/-- Only one status line is the first line of a message. -/
theorem isStatusLine_read {n : ℤ} (h : parseStatus raw = .ok n) :
    (∃ status, IsStatusLine (firstLine raw) status) ↔ IsStatusLine (firstLine raw) n := by
  constructor
  · rintro ⟨status, hline⟩
    have hread := parseStatus_statusLine hline
    rw [h] at hread
    cases hread
    exact hline
  · intro hline
    exact ⟨n, hline⟩

end Reading

/-! ### What is reported -/

section Reports

/-- The parser returns the number of the status line, or throws its own error. -/
def Reports (raw : Bytes) : Prop :=
  (∃ response, parseHttpResponse raw = .ok response ∧ IsStatusLine (firstLine raw) response.status) ∨
  ∃ what, parseHttpResponse raw = .throws (.runtimeError what)

/-- The message has a head that is taken for chunked, and this body. -/
def ChunkedMessage (raw body : Bytes) : Prop :=
  ∃ headerEnd, find crlf2 raw = some headerEnd ∧
    looksChunked (toLower (raw.take headerEnd)) = true ∧ body = raw.drop (headerEnd + 4)

variable {raw : Bytes} {headerEnd : ℕ} {n : ℤ} {e : Exn}

theorem reports_of_throws (h : parseStatus raw = .throws e) :
    Reports raw ↔ ∃ what, e = .runtimeError what := by
  unfold Reports parseHttpResponse
  rw [h, Outcome.throws_bind]
  simp

theorem reports_of_no_head (hend : find crlf2 raw = none) (h : parseStatus raw = .ok n) : Reports raw := by
  unfold Reports parseHttpResponse
  rw [h, hend]
  exact .inr ⟨_, rfl⟩

theorem reports_of_plain (hend : find crlf2 raw = some headerEnd)
    (hplain : looksChunked (toLower (raw.take headerEnd)) = false) (h : parseStatus raw = .ok n) :
    Reports raw ↔ IsStatusLine (firstLine raw) n := by
  unfold Reports
  rw [parseHttpResponse_eq hend, h, Outcome.ok_bind, if_neg (by rw [hplain]; exact Bool.false_ne_true)]
  simp

theorem reports_of_chunked (hend : find crlf2 raw = some headerEnd)
    (hchunked : looksChunked (toLower (raw.take headerEnd)) = true) (h : parseStatus raw = .ok n) :
    Reports raw ↔ Truncated (raw.drop (headerEnd + 4)) ∨
      IsStatusLine (firstLine raw) n ∧ Stops (raw.drop (headerEnd + 4)) := by
  unfold Reports
  rw [parseHttpResponse_eq hend, h, Outcome.ok_bind, if_pos hchunked, ← dechunk_stops_iff]
  by_cases htruncated : Truncated (raw.drop (headerEnd + 4))
  · refine iff_of_true (.inr ?_) (.inl htruncated)
    rw [dechunk_truncated htruncated]
    exact ⟨_, rfl⟩
  · rw [or_iff_right htruncated]
    rcases dechunk_cases (raw.drop (headerEnd + 4)) with ⟨decoded, hok⟩ | hcut | hdiverges
    · rw [hok]
      simp
    · exact absurd hcut htruncated
    · rw [hdiverges]
      refine iff_of_false ?_ fun h => h.2 rfl
      rintro (⟨response, hok, -⟩ | ⟨what, hthrow⟩)
      · cases hok
      · cases hthrow

theorem chunkedMessage_iff (hend : find crlf2 raw = some headerEnd) {body : Bytes} :
    ChunkedMessage raw body ↔
      looksChunked (toLower (raw.take headerEnd)) = true ∧ body = raw.drop (headerEnd + 4) := by
  unfold ChunkedMessage
  rw [hend]
  simp

/-- **When a response is reported as documented**: it has no space at all; or a number can be read behind
the first space and the head does not end or a chunk is truncated; or the first line is a status line and
the loop over the chunks, if there is one, stops. -/
theorem parseHttpResponse_reports_iff (raw : Bytes) :
    Reports raw ↔
      32 ∉ raw ∨
      ((∃ n, stoi (secondField raw) = .ok n) ∧
        (¬ crlf2 <:+: raw ∨ ∃ body, ChunkedMessage raw body ∧ Truncated body)) ∨
      ((∃ status, IsStatusLine (firstLine raw) status) ∧
        ∀ body, ChunkedMessage raw body → Stops body) := by
  by_cases hspace : (32 : UInt8) ∈ raw
  · rw [or_iff_right (not_not_intro hspace)]
    have hparse := parseStatus_eq hspace
    rcases stoi_cases (secondField raw) with ⟨n, hn⟩ | ⟨e, he, hnumber⟩
    · rw [hn] at hparse
      rw [isStatusLine_read hparse, and_iff_right ⟨n, hn⟩]
      cases hend : find crlf2 raw with
      | none =>
        exact iff_of_true (reports_of_no_head hend hparse) (.inl (.inl (find_eq_none_iff.mp hend)))
      | some headerEnd =>
        have hhead : crlf2 <:+: raw := find_isSome_iff.mp (by rw [hend]; rfl)
        rw [or_iff_right (not_not_intro hhead)]
        simp only [chunkedMessage_iff hend]
        cases hchunked : looksChunked (toLower (raw.take headerEnd)) with
        | false => simpa using reports_of_plain hend hchunked hparse
        | true => simpa using reports_of_chunked hend hchunked hparse
    · -- the exception of `std::stoi` escapes
      rw [he] at hparse
      rw [reports_of_throws hparse]
      refine iff_of_false ?_ ?_
      · rintro ⟨what, rfl⟩
        rcases hnumber with h | h <;> cases h
      · rintro (⟨⟨n, hn⟩, -⟩ | ⟨⟨status, hline⟩, -⟩)
        · rw [he] at hn
          cases hn
        · rw [parseStatus_statusLine hline] at hparse
          cases hparse
  · refine iff_of_true (.inr ?_) (.inl hspace)
    unfold parseHttpResponse parseStatus
    rw [find_space_eq_none.mpr hspace]
    exact ⟨_, rfl⟩

/-- A status line without its number: the exception of `std::stoi` escapes. -/
theorem parseHttpResponse_escapes : ¬ Reports (str "HTTP/1.1 OK

") := by
  have hthrow : parseStatus (str "HTTP/1.1 OK

") = .throws (.invalidArgument "stoi") := by decide
  rw [reports_of_throws hthrow]
  rintro ⟨what, hwhat⟩
  cases hwhat

end Reports

end KserveClient
