import KserveClient.Lib.Numeral
import Mathlib.Data.List.DropRight

/-!
# HttpSyntax — the grammar of HTTP/1.1 requests

The byte classes of the grammar, a strict parser for one request, and its writer.  `parseRequest` splits
off the request line, the field lines and as many bytes of body as `Content-Length` announces, and returns
what is behind.

* `parseRequest_sound`: what is parsed is made of tokens, targets and field text.
* `parseRequest_render`: a request written with such parts is parsed back, with nothing left.
-/

namespace HttpSyntax

/-! ### Byte classes -/

/-- `OWS`: a space or a tab. -/
def isBlank (c : UInt8) : Bool := c == 32 || c == 9

def isAlpha (c : UInt8) : Bool := (65 ≤ c && c ≤ 90) || (97 ≤ c && c ≤ 122)

def isDigit (c : UInt8) : Bool := 48 ≤ c && c ≤ 57

def isHexDigit (c : UInt8) : Bool := isDigit c || (65 ≤ c && c ≤ 70) || (97 ≤ c && c ≤ 102)

/-- `tchar` -/
def isTokenByte (c : UInt8) : Bool :=
  isAlpha c || isDigit c ||
    [33, 35, 36, 37, 38, 39, 42, 43, 45, 46, 94, 95, 96, 124, 126].contains c

def isToken (s : List UInt8) : Bool := !s.isEmpty && s.all isTokenByte

/-- Visible characters, text beyond ASCII, spaces and tabs: what a field value is made of. -/
def isFieldByte (c : UInt8) : Bool := c == 9 || (32 ≤ c && c != 127)

/-- `pchar`, `/`, `?` and the percent sign of an escape. -/
def isTargetByte (c : UInt8) : Bool :=
  isAlpha c || isDigit c ||
    [33, 36, 37, 38, 39, 40, 41, 42, 43, 44, 45, 46, 47, 58, 59, 61, 63, 64, 95, 126].contains c

/-- Every percent sign is followed by two hexadecimal digits. -/
def escapesOk : List UInt8 → Bool
  | [] => true
  | c :: s =>
    (c != 37 || match s with
      | a :: b :: _ => isHexDigit a && isHexDigit b
      | _ => false) && escapesOk s

/-- `origin-form`: an absolute path and an optional query. -/
def isOriginForm (s : List UInt8) : Bool := s.head? == some 47 && s.all isTargetByte && escapesOk s

def lower (c : UInt8) : UInt8 := if 65 ≤ c ∧ c ≤ 90 then c + 32 else c

/-- Field names are compared without case. -/
def sameName (s t : List UInt8) : Bool := s.map lower == t.map lower

/-- The text without the blanks around it. -/
def trimBlanks (s : List UInt8) : List UInt8 := (s.dropWhile isBlank).rdropWhile isBlank

/-! ### Parsing -/

def crlf : List UInt8 := [13, 10]

/-- The text up to the first CRLF, and the text behind it. -/
def takeLine : List UInt8 → Option (List UInt8 × List UInt8)
  | [] => none
  | c :: s =>
    if c = 13 ∧ s.head? = some 10 then some ([], s.tail)
    else (takeLine s).map fun r => (c :: r.1, r.2)

def http11 : List UInt8 := [72, 84, 84, 80, 47, 49, 46, 49]

/-- The method and the target of a request line. -/
def parseRequestLine (line : List UInt8) : Option (List UInt8 × List UInt8) :=
  let method := line.takeWhile (· != 32)
  let rest := (line.dropWhile (· != 32)).drop 1
  let target := rest.takeWhile (· != 32)
  if isToken method && isOriginForm target && rest.dropWhile (· != 32) == 32 :: http11 then
    some (method, target)
  else none

/-- The name and the value of a field line. -/
def parseField (line : List UInt8) : Option (List UInt8 × List UInt8) :=
  let name := line.takeWhile (· != 58)
  match line.dropWhile (· != 58) with
  | _ :: value =>
    if isToken name && value.all isFieldByte then some (name, trimBlanks value) else none
  | [] => none

/-- The field lines up to the empty line, and the text behind it; `fuel` bounds the number of lines. -/
def parseFields : ℕ → List UInt8 → Option (List (List UInt8 × List UInt8) × List UInt8)
  | 0, _ => none
  | fuel + 1, s => do
    let (line, rest) ← takeLine s
    if line = [] then some ([], rest)
    else do
      let field ← parseField line
      let (fields, rest) ← parseFields fuel rest
      some (field :: fields, rest)

def contentLength : List UInt8 := [99, 111, 110, 116, 101, 110, 116, 45, 108, 101, 110, 103, 116, 104]

def transferEncoding : List UInt8 :=
  [116, 114, 97, 110, 115, 102, 101, 114, 45, 101, 110, 99, 111, 100, 105, 110, 103]

/-- The values of the fields of a name. -/
def valuesOf (name : List UInt8) (fields : List (List UInt8 × List UInt8)) : List (List UInt8) :=
  (fields.filter fun f => sameName f.1 name).map Prod.snd

/-- The length of the body, when no transfer coding is in play and at most one length is announced. -/
def bodyLength (fields : List (List UInt8 × List UInt8)) : Option ℕ :=
  if valuesOf transferEncoding fields ≠ [] then none
  else
    match valuesOf contentLength fields with
    | [] => some 0
    | [text] => if !text.isEmpty && text.all (Numeral.isDigit 10) then some (Numeral.value 10 text) else none
    | _ => none

structure Request where
  method : List UInt8
  target : List UInt8
  fields : List (List UInt8 × List UInt8)
  body : List UInt8
deriving DecidableEq

/-- The request at the start of `raw`, and what is behind it. -/
def parseRequest (raw : List UInt8) : Option (Request × List UInt8) := do
  let (line, rest) ← takeLine raw
  let (method, target) ← parseRequestLine line
  let (fields, rest) ← parseFields (rest.length + 1) rest
  let n ← bodyLength fields
  if rest.length < n then none else some (⟨method, target, fields, rest.take n⟩, rest.drop n)

/-! ### Writing -/

def fieldText (f : List UInt8 × List UInt8) : List UInt8 := f.1 ++ 58 :: 32 :: f.2

/-- A request written out, with a space behind each colon. -/
def render (method target : List UInt8) (fields : List (List UInt8 × List UInt8)) (body : List UInt8) :
    List UInt8 :=
  method ++ 32 :: target ++ 32 :: http11 ++ crlf ++
    (fields.flatMap fun f => fieldText f ++ crlf) ++ crlf ++ body

/-! ### The values of a name -/

section Values

variable {name : List UInt8}

theorem valuesOf_append (fields more : List (List UInt8 × List UInt8)) :
    valuesOf name (fields ++ more) = valuesOf name fields ++ valuesOf name more := by
  rw [valuesOf, List.filter_append, List.map_append, valuesOf, valuesOf]

theorem valuesOf_eq_nil {fields : List (List UInt8 × List UInt8)}
    (h : ∀ f ∈ fields, sameName f.1 name = false) : valuesOf name fields = [] := by
  have hfilter : fields.filter (fun f => sameName f.1 name) = [] :=
    List.filter_eq_nil_iff.mpr fun f hf => by rw [h f hf]; exact Bool.false_ne_true
  rw [valuesOf, hfilter, List.map_nil]

end Values

/-! ### Bytes that end a part -/

variable {s t : List UInt8}

theorem isToken_iff : isToken s = true ↔ s ≠ [] ∧ ∀ c ∈ s, isTokenByte c = true := by
  rw [isToken, Bool.and_eq_true, Bool.not_eq_true', List.isEmpty_eq_false_iff, List.all_eq_true]

theorem not_mem_of_isToken (h : isToken s = true) : 13 ∉ s ∧ 32 ∉ s ∧ 58 ∉ s := by
  have hall := (isToken_iff.mp h).2
  refine ⟨fun hc => ?_, fun hc => ?_, fun hc => ?_⟩
  · exact absurd (hall 13 hc) (by decide)
  · exact absurd (hall 32 hc) (by decide)
  · exact absurd (hall 58 hc) (by decide)

theorem not_mem_of_isOriginForm (h : isOriginForm s = true) : 13 ∉ s ∧ 32 ∉ s := by
  rw [isOriginForm, Bool.and_eq_true, Bool.and_eq_true, List.all_eq_true] at h
  refine ⟨fun hc => ?_, fun hc => ?_⟩
  · exact absurd (h.1.2 13 hc) (by decide)
  · exact absurd (h.1.2 32 hc) (by decide)

theorem not_mem_of_fieldBytes (h : s.all isFieldByte = true) : 13 ∉ s := fun hc =>
  absurd (List.all_eq_true.mp h 13 hc) (by decide)

theorem isFieldByte_of_isBlank {c : UInt8} (h : isBlank c = true) : isFieldByte c = true := by
  rw [isBlank, Bool.or_eq_true, beq_iff_eq, beq_iff_eq] at h
  rcases h with rfl | rfl <;> decide

/-! ### Trimming -/

theorem trimBlanks_cons_blank {c : UInt8} (h : isBlank c = true) (s : List UInt8) :
    trimBlanks (c :: s) = trimBlanks s := by
  rw [trimBlanks, List.dropWhile_cons_of_pos h, trimBlanks]

/-- Only blanks are trimmed. -/
theorem fieldBytes_trimBlanks : (trimBlanks s).all isFieldByte = s.all isFieldByte := by
  have hdrop : (s.dropWhile isBlank).all isFieldByte = s.all isFieldByte := by
    induction s with
    | nil => rfl
    | cons c s ih =>
      by_cases hc : isBlank c = true
      · rw [List.dropWhile_cons_of_pos hc, ih, List.all_cons, isFieldByte_of_isBlank hc, Bool.true_and]
      · rw [List.dropWhile_cons_of_neg hc]
  rw [trimBlanks, ← hdrop]
  generalize s.dropWhile isBlank = t
  induction t using List.reverseRecOn with
  | nil => rfl
  | append_singleton t c ih =>
    by_cases hc : isBlank c = true
    · rw [List.rdropWhile_concat_pos _ _ _ hc, ih, List.all_append, List.all_cons, List.all_nil,
        isFieldByte_of_isBlank hc, Bool.and_true, Bool.and_true]
    · rw [List.rdropWhile_concat_neg _ _ _ hc]

/-- Text without a blank at either end is trimmed. -/
theorem trimBlanks_eq_self (hhead : ∀ c ∈ s.head?, isBlank c = false)
    (hlast : ∀ c ∈ s.getLast?, isBlank c = false) : trimBlanks s = s := by
  have hdrop : s.dropWhile isBlank = s := by
    cases s with
    | nil => rfl
    | cons c s => exact List.dropWhile_cons_of_neg (by rw [hhead c rfl]; exact Bool.false_ne_true)
  rw [trimBlanks, hdrop, List.rdropWhile_eq_self_iff]
  intro hne
  rw [hlast _ (List.getLast?_eq_getLast_of_ne_nil hne)]
  exact Bool.false_ne_true

/-- Trimmed text does not end in a blank. -/
theorem getLast_trimBlanks {c : UInt8} (h : c ∈ (trimBlanks s).getLast?) : isBlank c = false := by
  obtain ⟨hne, rfl⟩ := List.mem_getLast?_eq_getLast h
  have hlast := List.rdropWhile_last_not isBlank (s.dropWhile isBlank) hne
  exact Bool.not_eq_true _ ▸ hlast

/-! ### Soundness -/

theorem parseRequestLine_sound {line method target : List UInt8}
    (h : parseRequestLine line = some (method, target)) :
    isToken method = true ∧ isOriginForm target = true := by
  unfold parseRequestLine at h
  dsimp only at h
  split_ifs at h with hok
  cases h
  rw [Bool.and_eq_true, Bool.and_eq_true] at hok
  exact hok.1

/-- A name and a value that the grammar allows. -/
def FieldOk (f : List UInt8 × List UInt8) : Prop :=
  isToken f.1 = true ∧ f.2.all isFieldByte = true

theorem parseField_sound {line : List UInt8} {f : List UInt8 × List UInt8}
    (h : parseField line = some f) : FieldOk f ∧ ∀ c ∈ f.2.getLast?, isBlank c = false := by
  unfold parseField at h
  split at h
  · dsimp only at h
    split_ifs at h with hok
    cases h
    rw [Bool.and_eq_true] at hok
    exact ⟨⟨hok.1, fieldBytes_trimBlanks.trans hok.2⟩, fun c hc => getLast_trimBlanks hc⟩
  · cases h

theorem parseFields_sound {fuel : ℕ} {fields : List (List UInt8 × List UInt8)} {rest : List UInt8}
    (h : parseFields fuel s = some (fields, rest)) :
    ∀ f ∈ fields, FieldOk f ∧ ∀ c ∈ f.2.getLast?, isBlank c = false := by
  induction fuel generalizing s fields rest with
  | zero => cases h
  | succ fuel ih =>
    obtain ⟨⟨line, behind⟩, -, h⟩ := Option.bind_eq_some_iff.mp h
    dsimp only at h
    split_ifs at h with hline
    · cases h
      exact fun f hf => absurd hf List.not_mem_nil
    · obtain ⟨field, hfield, h⟩ := Option.bind_eq_some_iff.mp h
      obtain ⟨⟨more, last⟩, hmore, h⟩ := Option.bind_eq_some_iff.mp h
      cases h
      intro f hf
      rcases List.mem_cons.mp hf with rfl | hf
      · exact parseField_sound hfield
      · exact ih hmore f hf

/-- **What is parsed** is made of tokens, targets and field text without a blank at its end. -/
theorem parseRequest_sound {raw rest : List UInt8} {r : Request} (h : parseRequest raw = some (r, rest)) :
    isToken r.method = true ∧ isOriginForm r.target = true ∧
      ∀ f ∈ r.fields, FieldOk f ∧ ∀ c ∈ f.2.getLast?, isBlank c = false := by
  obtain ⟨⟨line, behind⟩, -, h⟩ := Option.bind_eq_some_iff.mp h
  obtain ⟨⟨method, target⟩, hline, h⟩ := Option.bind_eq_some_iff.mp h
  obtain ⟨⟨fields, body⟩, hfields, h⟩ := Option.bind_eq_some_iff.mp h
  obtain ⟨n, -, h⟩ := Option.bind_eq_some_iff.mp h
  split_ifs at h
  cases h
  obtain ⟨hmethod, htarget⟩ := parseRequestLine_sound hline
  exact ⟨hmethod, htarget, parseFields_sound hfields⟩

/-! ### Reading back what is written -/

theorem takeLine_append {line : List UInt8} (h : 13 ∉ line) (rest : List UInt8) :
    takeLine (line ++ crlf ++ rest) = some (line, rest) := by
  induction line with
  | nil => rfl
  | cons c line ih =>
    have hc : c ≠ 13 := fun hc => h (by simp [hc])
    rw [List.cons_append, List.cons_append, takeLine, if_neg fun hbreak => hc hbreak.1,
      ih fun hm => h (List.mem_cons_of_mem _ hm)]
    rfl

theorem takeWhile_ne {a : UInt8} (h : a ∉ s) (t : List UInt8) :
    (s ++ a :: t).takeWhile (· != a) = s ∧ (s ++ a :: t).dropWhile (· != a) = a :: t := by
  have hall : ∀ c ∈ s, (c != a) = true := fun c hc => by
    rw [bne_iff_ne]
    rintro rfl
    exact h hc
  constructor
  · rw [List.takeWhile_append_of_pos hall]
    simp
  · rw [List.dropWhile_append_of_pos hall]
    simp

theorem parseRequestLine_render {method target : List UInt8} (hmethod : isToken method = true)
    (htarget : isOriginForm target = true) :
    parseRequestLine (method ++ 32 :: target ++ 32 :: http11) = some (method, target) := by
  obtain ⟨htake, hdrop⟩ := takeWhile_ne (not_mem_of_isToken hmethod).2.1 (target ++ 32 :: http11)
  obtain ⟨htake', hdrop'⟩ := takeWhile_ne (not_mem_of_isOriginForm htarget).2 http11
  rw [parseRequestLine, List.append_assoc, List.cons_append]
  simp only [htake, hdrop, List.drop_one, List.tail_cons, htake', hdrop', hmethod, htarget, Bool.and_self,
    beq_self_eq_true, if_true]

theorem parseField_fieldText {f : List UInt8 × List UInt8} (h : FieldOk f) :
    parseField (fieldText f) = some (f.1, trimBlanks f.2) := by
  obtain ⟨htake, hdrop⟩ := takeWhile_ne (not_mem_of_isToken h.1).2.2 (32 :: f.2)
  have hvalue : (32 :: f.2).all isFieldByte = true := by
    rw [List.all_cons, h.2]
    decide
  rw [parseField, fieldText, htake, hdrop]
  simp only [h.1, hvalue, Bool.and_self, if_true]
  rw [trimBlanks_cons_blank (by decide)]

theorem fieldText_ok {f : List UInt8 × List UInt8} (h : FieldOk f) : 13 ∉ fieldText f := by
  intro hc
  rw [fieldText, List.mem_append, List.mem_cons, List.mem_cons] at hc
  rcases hc with hc | hc | hc | hc
  · exact (not_mem_of_isToken h.1).1 hc
  · exact absurd hc (by decide)
  · exact absurd hc (by decide)
  · exact not_mem_of_fieldBytes h.2 hc

/-- Each field takes up a line. -/
theorem length_le_fieldLines (fields : List (List UInt8 × List UInt8)) :
    fields.length ≤ (fields.flatMap fun f => fieldText f ++ crlf).length := by
  induction fields with
  | nil => exact Nat.le_refl _
  | cons f fields ih =>
    rw [List.flatMap_cons, List.length_append, List.length_append, List.length_cons]
    have hcrlf : crlf.length = 2 := rfl
    omega

/-- What a written field is read back as. -/
def trimField (f : List UInt8 × List UInt8) : List UInt8 × List UInt8 := (f.1, trimBlanks f.2)

theorem parseFields_render {fields : List (List UInt8 × List UInt8)} (h : ∀ f ∈ fields, FieldOk f)
    {fuel : ℕ} (hfuel : fields.length < fuel) (body : List UInt8) :
    parseFields fuel ((fields.flatMap fun f => fieldText f ++ crlf) ++ crlf ++ body) =
      some (fields.map trimField, body) := by
  induction fields generalizing fuel with
  | nil =>
    obtain ⟨fuel, rfl⟩ := Nat.exists_eq_add_one_of_ne_zero (by simpa using hfuel.ne')
    rfl
  | cons f fields ih =>
    obtain ⟨fuel, rfl⟩ := Nat.exists_eq_add_one_of_ne_zero (Nat.ne_zero_of_lt hfuel)
    have hf : FieldOk f := h f List.mem_cons_self
    have hrest : parseFields fuel ((fields.flatMap fun f => fieldText f ++ crlf) ++ crlf ++ body) =
        some (fields.map trimField, body) :=
      ih (fun g hg => h g (List.mem_cons_of_mem _ hg)) (by rw [List.length_cons] at hfuel; omega)
    have hline : fieldText f ≠ [] := by simp [fieldText]
    rw [List.flatMap_cons, List.append_assoc, List.append_assoc, parseFields, takeLine_append (fieldText_ok hf)]
    rw [List.append_assoc] at hrest
    simp only [Option.bind_eq_bind, Option.bind_some, if_neg hline, parseField_fieldText hf, hrest]
    rfl

/-- **A request is parsed back** from its text, with trimmed values and nothing left, when its parts are
what the grammar allows and its fields announce its body. -/
theorem parseRequest_render {method target body : List UInt8} {fields : List (List UInt8 × List UInt8)}
    (hmethod : isToken method = true) (htarget : isOriginForm target = true)
    (hfields : ∀ f ∈ fields, FieldOk f) (hbody : bodyLength (fields.map trimField) = some body.length) :
    parseRequest (render method target fields body) =
      some (⟨method, target, fields.map trimField, body⟩, []) := by
  have hline : 13 ∉ method ++ 32 :: target ++ 32 :: http11 := by
    simp only [List.mem_append, List.mem_cons, not_or]
    refine ⟨⟨(not_mem_of_isToken hmethod).1, by decide, (not_mem_of_isOriginForm htarget).1⟩, by decide, ?_⟩
    decide
  have hfuel : fields.length <
      ((fields.flatMap fun f => fieldText f ++ crlf) ++ crlf ++ body).length + 1 := by
    have hlength := length_le_fieldLines fields
    rw [List.length_append, List.length_append]
    omega
  have hsplit : takeLine (render method target fields body) = some
      (method ++ 32 :: target ++ 32 :: http11,
        (fields.flatMap fun f => fieldText f ++ crlf) ++ crlf ++ body) := by
    rw [render, ← takeLine_append hline]
    simp only [List.append_assoc]
  rw [parseRequest, hsplit]
  simp only [Option.bind_eq_bind, Option.bind_some, parseRequestLine_render hmethod htarget,
    parseFields_render hfields hfuel, hbody, lt_irrefl, if_false, List.take_length, List.drop_length]

end HttpSyntax
