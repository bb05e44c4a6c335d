import KserveClient.Transport

/-!
# KserveClient.HttpHead — heads of responses, and the length they declare

A `ResponseHead` is any byte string up to the first empty line; `HasField` says that one of its lines is a
field of a given name.  `IsDecimal` is the grammar of a `Content-Length` value.

* `exists_hasField`: the marker search finds a `Content-Length` line and no other.
* `messageComplete_length`: with a declared length, a message is complete from that length on.
-/

namespace KserveClient

open ListSearch

/-! ### Lower case -/

theorem lowerByte_eq {c d : UInt8} (hd : d < 97) (h : lowerByte c = d) : c = d := by
  unfold lowerByte at h
  split_ifs at h with hc
  · rw [UInt8.le_iff_toNat_le, UInt8.le_iff_toNat_le] at hc
    rw [UInt8.lt_iff_toNat_lt, ← h, UInt8.toNat_add] at hd
    simp at hc hd
    omega
  · exact h

theorem lowerByte_of_lt {c : UInt8} (hc : c < 65) : lowerByte c = c := by
  refine if_neg fun h => ?_
  rw [UInt8.lt_iff_toNat_lt] at hc
  rw [UInt8.le_iff_toNat_le] at h
  omega

theorem toLower_append (s t : Bytes) : toLower (s ++ t) = toLower s ++ toLower t := List.map_append

theorem toLower_of_lt {s : Bytes} (hs : ∀ c ∈ s, c < 65) : toLower s = s := by
  rw [toLower, List.map_congr_left fun c hc => lowerByte_of_lt (hs c hc)]
  exact List.map_id s

/-- What is lower-cased to text without letters is that text. -/
theorem eq_of_toLower {s t : Bytes} (ht : t.all (· < 97)) (h : toLower s = t) : s = t := by
  subst h
  induction s with
  | nil => rfl
  | cons c s ih =>
    rw [toLower, List.map_cons, List.all_cons, Bool.and_eq_true, decide_eq_true_eq] at ht
    have hc : c = lowerByte c := lowerByte_eq ht.1 rfl
    have hs : s = toLower s := ih ht.2
    exact congrArg₂ List.cons hc hs

/-! ### Fields -/

/-- One of the lines below the first is the field `key`, and `text` is what stands behind its colon. -/
def HasField (head key text : Bytes) : Prop :=
  ∃ before name rest, head = before ++ (crlf ++ name ++ str ":") ++ (text ++ rest) ∧
    toLower name = key ∧ ¬ crlf <:+: text ∧ (rest = [] ∨ crlf <+: rest)

/-- A line ends at the first CRLF or at the end. -/
theorem exists_line (s : Bytes) :
    ∃ text rest, s = text ++ rest ∧ ¬ crlf <:+: text ∧ (rest = [] ∨ crlf <+: rest) := by
  cases h : find crlf s with
  | none => exact ⟨s, [], by simp, find_eq_none_iff.mp h, .inl rfl⟩
  | some i =>
    obtain ⟨hpre, -, -⟩ := find_eq_some_iff.mp h
    exact ⟨s.take i, s.drop i, (List.take_append_drop i s).symm, not_infix_take (by simp [crlf]) h,
      .inr hpre⟩

variable {head key text : Bytes}

/-- The marker of a field, in a head whose letters are lower case. -/
def fieldMarker (key : Bytes) : Bytes := crlf ++ key ++ str ":"

theorem HasField.infix_toLower (h : HasField head key text) :
    ∃ before rest, toLower head = before ++ fieldMarker key ++ toLower text ++ rest := by
  obtain ⟨before, name, rest, rfl, rfl, -, -⟩ := h
  refine ⟨toLower before, toLower rest, ?_⟩
  have hmarker : toLower (crlf ++ name ++ str ":") = fieldMarker (toLower name) := by
    rw [fieldMarker, toLower_append, toLower_append]
    rfl
  rw [toLower_append, toLower_append, hmarker, toLower_append, ← List.append_assoc]

theorem HasField.find_isSome (h : HasField head key text) :
    (find (fieldMarker key) (toLower head)).isSome := by
  obtain ⟨before, rest, hhead⟩ := h.infix_toLower
  rw [find_isSome_iff, hhead]
  exact ⟨before, toLower text ++ rest, by simp⟩

/-- **What the marker search finds** is a field of that name. -/
theorem exists_hasField {pos : ℕ} (h : find (fieldMarker key) (toLower head) = some pos) :
    ∃ text rest, HasField head key text ∧ (rest = [] ∨ crlf <+: rest) ∧
      (toLower head).drop (pos + (fieldMarker key).length) = toLower (text ++ rest) := by
  obtain ⟨tail, htail⟩ := (find_eq_some_iff.mp h).1
  have hlower : toLower (head.drop pos) = fieldMarker key ++ tail := by
    rw [htail, toLower, toLower, List.map_drop]
  obtain ⟨marker, after, hdrop, hmarker, hafter⟩ := List.map_eq_append_iff.mp hlower
  rw [fieldMarker] at hmarker
  obtain ⟨m, colon, rfl, hm, hcolon⟩ := List.map_eq_append_iff.mp hmarker
  obtain ⟨line, name, rfl, hline, hname⟩ := List.map_eq_append_iff.mp hm
  obtain rfl : line = crlf := eq_of_toLower (by decide) hline
  obtain rfl : colon = str ":" := eq_of_toLower (by decide) hcolon
  obtain ⟨text, rest, rfl, htext, hrest⟩ := exists_line after
  refine ⟨text, rest, ⟨head.take pos, name, rest, ?_, hname, htext, hrest⟩, hrest, ?_⟩
  · rw [List.append_assoc, ← hdrop, List.take_append_drop]
  · rw [← List.drop_drop, ← htail, List.drop_left, ← hafter]
    rfl

/-- A head with a field that says `chunked` looks chunked. -/
theorem looksChunked_of_field (h : HasField head (str "transfer-encoding") text)
    (htext : str "chunked" <:+: toLower text) : looksChunked (toLower head) = true := by
  obtain ⟨before, rest, hhead⟩ := h.infix_toLower
  have hmarker : str "transfer-encoding:" <:+: fieldMarker (str "transfer-encoding") :=
    ⟨crlf, [], by decide⟩
  rw [looksChunked, Bool.and_eq_true, find_isSome_iff, find_isSome_iff, hhead]
  constructor
  · exact hmarker.trans ⟨before, toLower text ++ rest, by simp⟩
  · exact htext.trans ⟨before ++ fieldMarker (str "transfer-encoding"), rest, by simp⟩

/-! ### Declared lengths -/

/-- A space or a tab. -/
def IsBlank (c : UInt8) : Prop := c = 32 ∨ c = 9

/-- The text of a `Content-Length` value: digits, with blanks around. -/
def IsDecimal (text : Bytes) (n : ℕ) : Prop :=
  ∃ front digits back, text = front ++ digits ++ back ∧ (∀ c ∈ front, IsBlank c) ∧
    (∀ c ∈ back, IsBlank c) ∧ digits ≠ [] ∧ (∀ c ∈ digits, Numeral.isDigit 10 c) ∧
    Numeral.value 10 digits = n

theorem IsDecimal.lt_65 {n : ℕ} (h : IsDecimal text n) : ∀ c ∈ text, c < 65 := by
  obtain ⟨front, digits, back, rfl, hfront, hback, -, hdigits, -⟩ := h
  have hblank : ∀ c, IsBlank c → c < 65 := by
    rintro c (rfl | rfl) <;> decide
  intro c hc
  rcases List.mem_append.mp hc with hc | hc
  · rcases List.mem_append.mp hc with hc | hc
    · exact hblank c (hfront c hc)
    · have hdigit := hdigits c hc
      simp only [Numeral.isDigit, Numeral.digitVal, decide_eq_true_eq, UInt8.le_iff_toNat_le] at hdigit
      rw [UInt8.lt_iff_toNat_lt]
      simp at hdigit ⊢
      split_ifs at hdigit <;> omega
  · exact hblank c (hback c hc)

/-- `std::stol` reads a declared length, whatever line follows. -/
theorem stol_isDecimal {n : ℕ} (h : IsDecimal text n) {rest : Bytes}
    (hrest : rest = [] ∨ crlf <+: rest) : stol (toLower (text ++ rest)) =
      if n < 2 ^ 63 then .ok (n : ℤ) else .throws (.outOfRange "stol") := by
  rw [toLower_append, toLower_of_lt h.lt_65]
  obtain ⟨front, digits, back, rfl, hfront, hback, hne, hdigits, rfl⟩ := h
  have hnext : ∀ c ∈ (back ++ toLower rest).head?,
      Numeral.isDigit 10 c = false ∧ c ≠ 120 ∧ c ≠ 88 := by
    intro c hc
    cases back with
    | cons b back =>
      obtain rfl : b = c := by simpa using hc
      rcases hback b (by simp) with rfl | rfl <;> decide
    | nil =>
      rcases hrest with rfl | ⟨rest, rfl⟩
      · simp [toLower] at hc
      · obtain rfl : (13 : UInt8) = c := by simpa [crlf, toLower, lowerByte] using hc
        decide
  have hspace : ∀ c ∈ front, Numeral.isSpace c := by
    intro c hc
    rcases hfront c hc with rfl | rfl <;> decide
  have hread := Numeral.readInt_digits (by norm_num) hspace hne hdigits hnext
  rw [List.append_assoc, List.append_assoc, ← List.append_assoc, stol_of_readInt hread]

/-- The `Content-Length` fields of a head declare `n`: there is one, and each of them is the text
of `n`. -/
def DeclaresLength (head : Bytes) (n : ℕ) : Prop :=
  (∃ text, HasField head (str "content-length") text) ∧
    ∀ text, HasField head (str "content-length") text → IsDecimal text n

/-- **A declared length decides**: the message is complete from that many bytes behind the head on. -/
theorem messageComplete_length {raw : Bytes} {headerEnd n : ℕ}
    (hend : find crlf2 raw = some headerEnd)
    (hchunked : looksChunked (toLower (raw.take headerEnd)) = false)
    (hlength : DeclaresLength (raw.take headerEnd) n) (hsize : raw.length < maxSize) :
    messageComplete raw = decide (headerEnd + 4 + n ≤ raw.length) := by
  obtain ⟨⟨text, hfield⟩, hall⟩ := hlength
  obtain ⟨pos, hpos⟩ := Option.isSome_iff_exists.mp hfield.find_isSome
  obtain ⟨text, rest, hfield, hrest, hdrop⟩ := exists_hasField hpos
  have hmarker : find lengthMarker (toLower (raw.take headerEnd)) = some pos := hpos
  have hstol := stol_isDecimal (hall text hfield) hrest
  have hlen : headerEnd + 4 ≤ raw.length := find_add_length_le hend
  rw [maxSize] at hsize
  rw [messageComplete, hend]
  simp only [hchunked, Bool.false_eq_true, if_false, hmarker]
  rw [show lengthMarker = fieldMarker (str "content-length") from rfl, hdrop, hstol]
  by_cases hn : n < 2 ^ 63
  · have hmod : ((n : ℤ) % sizeMod).toNat = n := by
      rw [sizeMod]
      omega
    have hsum : (headerEnd + 4 + n) % sizeMod = headerEnd + 4 + n :=
      Nat.mod_eq_of_lt (by rw [sizeMod]; omega)
    simp only [if_pos hn, hmod, hsum]
  · have hshort : ¬ headerEnd + 4 + n ≤ raw.length := by omega
    simp only [if_neg hn, hshort, decide_false]

/-- A prefix that holds the head has the same head. -/
theorem take_head {raw stream : Bytes} {headerEnd : ℕ} (hraw : raw <+: stream)
    (hend : find crlf2 stream = some headerEnd) (hlen : headerEnd + crlf2.length ≤ raw.length) :
    raw.take headerEnd = stream.take headerEnd := by
  obtain ⟨t, rfl⟩ := hraw
  rw [List.take_append_of_le_length (by omega)]

/-- **A declared length decides** in every prefix of the bytes that are received. -/
theorem messageComplete_of_isPrefix {raw stream : Bytes} {headerEnd n : ℕ} (hraw : raw <+: stream)
    (hend : find crlf2 stream = some headerEnd)
    (hchunked : looksChunked (toLower (stream.take headerEnd)) = false)
    (hlength : DeclaresLength (stream.take headerEnd) n) (hsize : raw.length < maxSize)
    (hlen : headerEnd + 4 ≤ raw.length) :
    messageComplete raw = decide (headerEnd + 4 + n ≤ raw.length) := by
  have hhead := take_head hraw hend hlen
  rw [← hhead] at hchunked hlength
  exact messageComplete_length (find_restrict hraw hend hlen) hchunked hlength hsize

/-! ### Heads -/

/-- A response head: the bytes before the first empty line. -/
structure ResponseHead where
  bytes : Bytes
  ends : find crlf2 (bytes ++ crlf2) = some bytes.length

namespace ResponseHead

variable (h : ResponseHead)

/-- The head of a message is found. -/
theorem find_terminator (body : Bytes) : find crlf2 (h.bytes ++ crlf2 ++ body) = some h.bytes.length :=
  find_append h.ends

theorem take_bytes (body : Bytes) : (h.bytes ++ crlf2 ++ body).take h.bytes.length = h.bytes := by
  rw [List.append_assoc, List.take_left]

theorem drop_bytes (body : Bytes) : (h.bytes ++ crlf2 ++ body).drop (h.bytes.length + 4) = body := by
  rw [← List.drop_drop, List.append_assoc, List.drop_left]
  rfl

end ResponseHead

/-! ### Heads made of lines -/

/-- A field line of a head. -/
structure Field where
  name : Bytes
  value : Bytes
  name_ok : 13 ∉ name ∧ 58 ∉ name
  value_ok : 13 ∉ value

/-- The text of a field, from the line feed before it on. -/
def Field.line (f : Field) : Bytes := 10 :: (f.name ++ 58 :: f.value)

/-- The lines of a list of fields. -/
def fieldLines (fields : List Field) : Bytes := fields.flatMap fun f => 13 :: f.line

theorem Field.line_ok (f : Field) : 13 ∉ f.line := by
  intro hc
  rw [line, List.mem_cons, List.mem_append, List.mem_cons] at hc
  rcases hc with hc | hc | hc | hc
  · exact absurd hc (by decide)
  · exact f.name_ok.1 hc
  · exact absurd hc (by decide)
  · exact f.value_ok hc

@[simp] theorem fieldLines_nil : fieldLines [] = [] := rfl

@[simp] theorem fieldLines_cons (f : Field) (fields : List Field) :
    fieldLines (f :: fields) = 13 :: (f.line ++ fieldLines fields) := by
  simp [fieldLines]

theorem fieldLines_append (fields more : List Field) :
    fieldLines (fields ++ more) = fieldLines fields ++ fieldLines more := List.flatMap_append ..

theorem fieldLines_eq (fields : List Field) : fieldLines fields = [] ∨ crlf <+: fieldLines fields := by
  cases fields with
  | nil => exact .inl rfl
  | cons f fields => exact .inr ⟨f.name ++ 58 :: f.value ++ fieldLines fields, by
      simp [Field.line, crlf]⟩

/-- The first carriage return of a text. -/
theorem append_cons_cr {s t before after : Bytes} (hs : 13 ∉ s)
    (h : s ++ t = before ++ 13 :: after) : ∃ skipped, before = s ++ skipped ∧ t = skipped ++ 13 :: after := by
  rcases List.append_eq_append_iff.mp h with ⟨u, rfl, ht⟩ | ⟨u, rfl, hu⟩
  · exact ⟨u, rfl, ht⟩
  · cases u with
    | nil => exact ⟨[], by simp, by simpa using hu.symm⟩
    | cons c u =>
      obtain ⟨rfl, -⟩ := List.cons_eq_cons.mp hu
      exact absurd (by simp) hs

/-- The end of a line without carriage returns. -/
theorem line_unique {text value rest tail : Bytes} (hvalue : 13 ∉ value)
    (htext : ¬ crlf <:+: text) (hrest : rest = [] ∨ crlf <+: rest) (htail : tail = [] ∨ crlf <+: tail)
    (h : text ++ rest = value ++ tail) : text = value := by
  rcases List.append_eq_append_iff.mp h with ⟨w, rfl, hw⟩ | ⟨w, rfl, hw⟩
  · cases w with
    | nil => simp
    | cons c w =>
      subst hw
      rcases hrest with hnil | ⟨r, hr⟩
      · simp at hnil
      · obtain ⟨rfl, -⟩ := List.cons_eq_cons.mp hr
        exact absurd (by simp) hvalue
  · rcases htail with rfl | ⟨r, rfl⟩
    · obtain ⟨rfl, -⟩ := List.append_eq_nil_iff.mp hw.symm
      simp
    · rcases w with _ | ⟨c, _ | ⟨d, w⟩⟩
      · simp
      · obtain ⟨rfl, rfl⟩ := List.cons_eq_cons.mp hw
        rcases hrest with hnil | ⟨q, hq⟩
        · simp at hnil
        · simp [crlf] at hq
      · obtain ⟨hc, hw⟩ := List.cons_eq_cons.mp hw
        obtain ⟨hd, -⟩ := List.cons_eq_cons.mp hw
        subst hc hd
        exact absurd ⟨value, w, by simp [crlf]⟩ htext

/-- **The fields of a head made of lines** are its fields. -/
theorem hasField_iff {first : Bytes} (hfirst : 13 ∉ first) (hkey : 58 ∉ key)
    (fields : List Field) : HasField (first ++ fieldLines fields) key text ↔
      ∃ f ∈ fields, toLower f.name = key ∧ f.value = text := by
  constructor
  · rintro ⟨before, name, rest, hhead, rfl, htext, hrest⟩
    have hcolon : 58 ∉ name := fun hc => hkey (List.mem_map.mpr ⟨58, hc, rfl⟩)
    rw [List.append_assoc] at hhead
    obtain ⟨skipped, -, hlines⟩ := append_cons_cr hfirst hhead
    clear hhead
    induction fields generalizing skipped with
    | nil => simp at hlines
    | cons f fields ih =>
      rw [fieldLines_cons] at hlines
      cases skipped with
      | nil =>
        have hline : name ++ 58 :: (text ++ rest) = f.name ++ 58 :: (f.value ++ fieldLines fields) := by
          have htail := (List.cons_inj_right _).mp ((List.cons_inj_right _).mp hlines)
          have hstr : str ":" = [58] := rfl
          simpa [hstr] using htail.symm
        obtain ⟨rfl, hvalue⟩ := append_mark_inj hcolon f.name_ok.2 hline
        exact ⟨f, by simp, rfl, (line_unique f.value_ok htext hrest (fieldLines_eq fields) hvalue).symm⟩
      | cons c skipped =>
        obtain ⟨-, hlines⟩ := List.cons_eq_cons.mp hlines
        obtain ⟨skipped, -, hlines⟩ := append_cons_cr f.line_ok hlines
        obtain ⟨g, hg, hname, hvalue⟩ := ih skipped hlines
        exact ⟨g, List.mem_cons_of_mem _ hg, hname, hvalue⟩
  · rintro ⟨f, hf, rfl, rfl⟩
    obtain ⟨pre, post, rfl⟩ := List.append_of_mem hf
    refine ⟨first ++ fieldLines pre, f.name, fieldLines post, ?_, rfl, ?_, fieldLines_eq post⟩
    · have hstr : str ":" = [58] := rfl
      simp [fieldLines_append, Field.line, crlf, hstr]
    · rintro ⟨u, v, huv⟩
      exact f.value_ok (by rw [← huv]; simp [crlf])

/-- An empty line does not stand among fields. -/
theorem find_crlf2_fieldLines (fields : List Field) :
    find crlf2 (fieldLines fields ++ crlf2) = some (fieldLines fields).length := by
  induction fields with
  | nil => exact find_of_isPrefix (List.prefix_refl _)
  | cons f fields ih =>
    have hstart : ¬ crlf2 <+: 13 :: (f.line ++ (fieldLines fields ++ crlf2)) := by
      rintro ⟨t, ht⟩
      have hthird := congrArg (fun s : Bytes => s[2]?) ht
      obtain ⟨name, value, hname, hvalue⟩ := f
      cases name with
      | nil => exact absurd hthird (by simp [Field.line, crlf2, crlf])
      | cons c name =>
        have hc : c = 13 := by simpa [Field.line, crlf2, crlf, eq_comm] using hthird
        exact hname.1 (by simp [hc])
    have hskip : find crlf2 (f.line ++ (fieldLines fields ++ crlf2)) =
        (find crlf2 (fieldLines fields ++ crlf2)).map (· + f.line.length) :=
      find_skip _ f.line_ok
    rw [fieldLines_cons, List.cons_append, List.append_assoc, find_cons_of_not hstart, hskip, ih]
    simp [Nat.add_comm]

/-- A head made of a status line and fields. -/
def ResponseHead.ofFields (statusLine : Bytes) (hline : 13 ∉ statusLine)
    (fields : List Field) : ResponseHead where
  bytes := statusLine ++ fieldLines fields
  ends := by
    have hskip : find crlf2 (statusLine ++ (fieldLines fields ++ crlf2)) =
        (find crlf2 (fieldLines fields ++ crlf2)).map (· + statusLine.length) :=
      find_skip _ hline
    rw [List.append_assoc, hskip, find_crlf2_fieldLines, List.length_append, Nat.add_comm]
    rfl

/-- The status line of the examples. -/
def okLine : Bytes := str "HTTP/1.1 200 OK"

theorem okLine_ok : 13 ∉ okLine := by decide

theorem okLine_version : 32 ∉ str "HTTP/1.1" := by decide

theorem okLine_status : (str "200").length = 3 ∧ (str "200").all (Numeral.isDigit 10) := ⟨rfl, by decide⟩

/-- A field `Content-Length` with the value `value`. -/
def lengthField (value : Bytes) (hvalue : 13 ∉ value) : Field :=
  ⟨str "Content-Length", value, by decide, hvalue⟩

/-- Before the empty line has arrived, nothing is complete. -/
theorem messageComplete_short {raw t : Bytes} {headerEnd : ℕ} (hraw : raw <+: t)
    (hend : find crlf2 t = some headerEnd) (hlen : raw.length < headerEnd + 4) :
    messageComplete raw = false := by
  have hnone : find crlf2 raw = none := by
    rw [← Option.not_isSome_iff_eq_none, find_restrict_iff hraw hend]
    have : crlf2.length = 4 := rfl
    omega
  rw [messageComplete, hnone]

/-! ### Status lines -/

/-- The text between the first two spaces of the whole message, or behind its only one. -/
def secondField (raw : Bytes) : Bytes := ((raw.dropWhile (· != 32)).drop 1).takeWhile (· != 32)

section StatusLines

variable {raw : Bytes}

theorem parseStatus_eq (h : 32 ∈ raw) : parseStatus raw = stoi (secondField raw) := by
  obtain ⟨l, t, rfl, hl⟩ := List.eq_append_cons_of_mem h
  have hfirst : find (str " ") (l ++ 32 :: t) = some l.length := find_letter hl
  have hsplit : l ++ 32 :: t = (l ++ [32]) ++ t := by simp
  have hlen : (l ++ [32]).length = l.length + 1 := by simp
  have hrest : (l ++ 32 :: t).drop (l.length + 1) = t := by rw [hsplit, ← hlen, List.drop_left]
  have hnext : findFrom (str " ") (l ++ 32 :: t) (l.length + 1)
      = (find (str " ") t).map (· + (l.length + 1)) := by
    rw [hsplit, ← hlen, findFrom_append_left]
  unfold parseStatus secondField
  rw [hfirst, dropWhile_letter hl]
  dsimp only
  rw [hnext, hrest, List.drop_succ_cons, List.drop_zero]
  by_cases hsecond : (32 : UInt8) ∈ t
  · obtain ⟨m, u, rfl, hm⟩ := List.eq_append_cons_of_mem hsecond
    have hfind : find (str " ") (m ++ 32 :: u) = some m.length := find_letter hm
    have hsub : m.length + (l.length + 1) - l.length - 1 = m.length := by omega
    rw [hfind, Option.map_some, takeWhile_letter hm]
    dsimp only
    rw [hsub, List.take_left]
  · have hfind : find (str " ") t = none := find_letter_eq_none hsecond
    rw [hfind, Option.map_none, takeWhile_no_letter hsecond]

theorem isDigit_ne_space {d : UInt8} (h : Numeral.isDigit 10 d) : d ≠ 32 := by
  rintro rfl
  simp [Numeral.isDigit, Numeral.digitVal] at h

/-- Three digits, in front of what does not go on with a digit, are a number. -/
theorem stoi_code {code tail : Bytes} (hlen : code.length = 3) (hcode : ∀ d ∈ code, Numeral.isDigit 10 d)
    (hstop : ∀ c ∈ tail.head?, Numeral.isDigit 10 c = false ∧ c ≠ 120 ∧ c ≠ 88) :
    stoi (code ++ tail) = .ok (Numeral.value 10 code : ℤ) := by
  have hne : code ≠ [] := by
    rintro rfl
    cases hlen
  have hread : Numeral.readInt 10 (code ++ tail) = some (false, Numeral.value 10 code) := by
    have := @Numeral.readInt_digits 10 (by norm_num) [] code tail (by simp) hne hcode hstop
    simpa using this
  have hsmall : Numeral.value 10 code < 10 ^ 3 := by
    rw [← hlen]
    exact Numeral.value_lt (by norm_num) hcode
  unfold stoi
  rw [hread]
  exact if_pos (by simp; omega)

/-- A status of three digits behind the version. -/
theorem parseStatus_of_isPrefix {version status : Bytes} (hversion : 32 ∉ version)
    (hstatus : status.length = 3 ∧ status.all (Numeral.isDigit 10))
    (h : version ++ 32 :: (status ++ [32]) <+: raw) :
    parseStatus raw = .ok (Numeral.value 10 status : ℤ) := by
  obtain ⟨t, rfl⟩ := h
  obtain ⟨hlen, hall⟩ := hstatus
  have hdigits := List.all_eq_true.mp hall
  have hgroup : version ++ 32 :: (status ++ [32]) ++ t = version ++ 32 :: (status ++ 32 :: t) := by simp
  have hcode := @stoi_code status [] hlen hdigits (by simp)
  rw [hgroup, parseStatus_eq (by simp), secondField, dropWhile_letter hversion, List.drop_succ_cons,
    List.drop_zero, takeWhile_letter fun hmem => isDigit_ne_space (hdigits _ hmem) rfl]
  rwa [List.append_nil] at hcode

end StatusLines

end KserveClient
