import KserveClient.HttpHead
import KserveClient.Lib.HttpSyntax

/-!
# KserveClient.FieldLookup — fields are looked up by substring

`messageComplete` and `parseHttpResponse` read three things in a head: whether the body is chunked, the
length of the body, and the length of the JSON header.  `fieldFraming` and `lookup` read them from the list
of fields.  Only the length of the body is searched for at the start of a line; the other searches also find
the status line, the end of a longer name and the values, and every number is read on beyond a blank line end.

* `behind_head`, `behind_length`: the searches of the code, line by line.
* `recognised_iff`: when the code reads a head as its fields say.
-/

namespace KserveClient

open ListSearch HttpSyntax

/-! ### Numbers -/

/-- The number that `std::stol` reads at the start of a text, if it does not throw. -/
def readLong (s : Bytes) : Option ℤ :=
  match stol s with
  | .ok v => some v
  | _ => none

theorem readLong_congr {s t : Bytes} (h : Numeral.readInt 10 s = Numeral.readInt 10 t) :
    readLong s = readLong t := by
  rw [readLong, stol, h, readLong, stol]

theorem lowerByte_letter {c : UInt8} (h : 65 ≤ c ∧ c ≤ 90) :
    (lowerByte c).toNat = c.toNat + 32 ∧ 65 ≤ c.toNat ∧ c.toNat ≤ 90 := by
  have hrange : 65 ≤ c.toNat ∧ c.toNat ≤ 90 := by
    rw [UInt8.le_iff_toNat_le, UInt8.le_iff_toNat_le] at h
    exact h
  refine ⟨?_, hrange⟩
  rw [lowerByte, if_pos h, UInt8.toNat_add]
  simp
  omega

theorem lowerByte_ne {c d : UInt8} (hd : d.toNat < 65) : lowerByte c = d ↔ c = d := by
  have hd' : d < 97 := by
    rw [UInt8.lt_iff_toNat_lt]
    exact lt_trans hd (by decide)
  refine ⟨fun h => lowerByte_eq hd' h, ?_⟩
  rintro rfl
  exact lowerByte_of_lt (UInt8.lt_iff_toNat_lt.mpr hd)

theorem digitVal_lowerByte (c : UInt8) : Numeral.digitVal (lowerByte c) = Numeral.digitVal c := by
  by_cases h : 65 ≤ c ∧ c ≤ 90
  · obtain ⟨hlower, hrange⟩ := lowerByte_letter h
    simp only [Numeral.digitVal, UInt8.le_iff_toNat_le, hlower]
    simp
    split_ifs <;> omega
  · rw [lowerByte, if_neg h]

theorem isSpace_lowerByte (c : UInt8) : Numeral.isSpace (lowerByte c) = Numeral.isSpace c := by
  by_cases h : 65 ≤ c ∧ c ≤ 90
  · obtain ⟨hlower, hrange⟩ := lowerByte_letter h
    have hspace : ∀ d : UInt8, 65 ≤ d.toNat → Numeral.isSpace d = false := by
      intro d hd
      have h32 : d ≠ 32 := by
        rintro rfl
        exact absurd hd (by decide)
      have h13 : ¬ d ≤ 13 := by
        rw [UInt8.le_iff_toNat_le]
        exact fun hle => absurd (le_trans hd hle) (by decide)
      simp [Numeral.isSpace, h32, h13]
    rw [hspace c hrange.1, hspace (lowerByte c) (by omega)]
  · rw [lowerByte, if_neg h]

/-- The case of letters does not matter to a number. -/
theorem readLong_toLower (s : Bytes) : readLong (toLower s) = readLong s :=
  readLong_congr (Numeral.readInt_map (by decide) isSpace_lowerByte
    (fun _ => ⟨lowerByte_ne (by decide), lowerByte_ne (by decide)⟩) digitVal_lowerByte s)
/-- A number in a line is read from the line, or from the lines behind it when the line is blank. -/
theorem readLong_append (s : Bytes) {rest : Bytes} (hrest : ∀ c ∈ rest.head?, c = 13) :
    readLong (s ++ rest) = if s.all Numeral.isSpace then readLong rest else readLong s := by
  by_cases hs : s.all Numeral.isSpace = true
  · rw [if_pos hs]
    exact readLong_congr (Numeral.readInt_blanks (List.all_eq_true.mp hs) rest)
  · rw [if_neg hs]
    refine readLong_congr (Numeral.readInt_append (by decide) (Bool.eq_false_iff.mpr hs) fun c hc => ?_)
    rw [hrest c hc]
    decide

theorem readLong_dropWhile {p : UInt8 → Bool} (hp : ∀ c, p c = true → Numeral.isSpace c = true) (s : Bytes) :
    readLong (s.dropWhile p) = readLong s := by
  conv_rhs => rw [← List.takeWhile_append_dropWhile (p := p) (l := s)]
  refine readLong_congr (Numeral.readInt_blanks (fun c hc => hp c ?_) _).symm
  exact List.mem_takeWhile_imp hc

/-! ### What the fields say -/

/-- The name of the field is `key`, in any case. -/
def Field.named (f : Field) (key : Bytes) : Bool := toLower f.name == key

/-- The first field of a name. -/
def fieldOf (key : Bytes) (fields : List Field) : Option Field := fields.find? fun f => f.named key

/-- The last one of a list of codings. -/
def finalCoding (value : Bytes) : Bytes := toLower (trimBlanks (value.rtakeWhile (· != 44)))

/-- A field `Transfer-Encoding` has `chunked` as its final coding. -/
def codedChunked (fields : List Field) : Bool :=
  fields.any fun f => f.named (str "transfer-encoding") && finalCoding f.value == str "chunked"

/-- Where a body ends. -/
inductive BodyEnd where
  | chunked
  /-- behind so many bytes, if the number can be read -/
  | length (n : Option ℤ)
  | close
deriving DecidableEq

/-- The end of the body, by the fields. -/
def fieldFraming (fields : List Field) : BodyEnd :=
  if codedChunked fields then .chunked
  else
    match fieldOf (str "content-length") fields with
    | some f => .length (readLong f.value)
    | none => .close

def inferenceKey : Bytes := str "inference-header-content-length"

/-! ### What the code reads -/

/-- The end of the body, by the searches in the head. -/
def headFraming (head : Bytes) : BodyEnd :=
  if looksChunked (toLower head) then .chunked
  else
    match find lengthMarker (toLower head) with
    | some pos => .length (readLong ((toLower head).drop (pos + lengthMarker.length)))
    | none => .close

namespace BodyEnd

/-- Is the message in `raw` complete, when its head ends at `headerEnd`? -/
def complete (headerEnd : ℕ) (raw : Bytes) : BodyEnd → Bool
  | chunked => (findFrom (crlf ++ str "0" ++ crlf2) raw headerEnd).isSome ||
      (raw.drop (headerEnd + 4)).take 5 == str "0" ++ crlf2
  | length (some n) => (headerEnd + 4 + (n % sizeMod).toNat) % sizeMod ≤ raw.length
  | length none => false
  | close => false

/-- The body of a response, without its coding. -/
def decode (body : Bytes) : BodyEnd → Outcome Bytes
  | chunked => dechunk body
  | _ => pure body

end BodyEnd

/-- **`messageComplete` uses the head** for the end of the body only. -/
theorem messageComplete_framing {raw : Bytes} {headerEnd : ℕ} (hend : find crlf2 raw = some headerEnd) :
    messageComplete raw = (headFraming (raw.take headerEnd)).complete headerEnd raw := by
  rw [messageComplete, hend, headFraming]
  dsimp only
  by_cases hchunked : looksChunked (toLower (raw.take headerEnd)) = true
  · rw [if_pos hchunked, if_pos hchunked]
    rfl
  · rw [if_neg hchunked, if_neg hchunked]
    cases find lengthMarker (toLower (raw.take headerEnd)) with
    | none => rfl
    | some pos =>
      dsimp only
      rw [readLong]
      cases stol ((toLower (raw.take headerEnd)).drop (pos + lengthMarker.length)) <;> rfl

/-- **`parseHttpResponse` uses the head** for the coding of the body and the length of the JSON header. -/
theorem parseHttpResponse_framing {raw : Bytes} {headerEnd : ℕ} (hend : find crlf2 raw = some headerEnd) :
    parseHttpResponse raw = (do
      let status ← parseStatus raw
      let body ← (headFraming (raw.take headerEnd)).decode (raw.drop (headerEnd + 4))
      pure ⟨status, body, parseInferenceHeaderLength (raw.take headerEnd)⟩) := by
  have hdecode : (headFraming (raw.take headerEnd)).decode (raw.drop (headerEnd + 4)) =
      if looksChunked (toLower (raw.take headerEnd)) then dechunk (raw.drop (headerEnd + 4))
      else .ok (raw.drop (headerEnd + 4)) := by
    rw [headFraming]
    split_ifs with hchunked
    · rfl
    · cases find lengthMarker (toLower (raw.take headerEnd)) <;> rfl
  rw [parseHttpResponse_eq hend, hdecode]
  rfl

/-! ### Places in a head -/

/-- The rest of a line, and the fields behind it. -/
abbrev Place := Bytes × List Field

/-- The text from a place on. -/
def Place.text (p : Place) : Bytes := p.1 ++ fieldLines p.2

/-- The number at a place: a blank rest of the line is skipped. -/
def Place.number (p : Place) : Option ℤ :=
  if p.1.all Numeral.isSpace then readLong (fieldLines p.2) else readLong p.1

theorem readLong_text (p : Place) : readLong p.text = p.number := by
  refine readLong_append p.1 fun c hc => ?_
  rcases fieldLines_eq p.2 with hnil | ⟨t, ht⟩
  · rw [hnil] at hc
    cases hc
  · rw [← ht] at hc
    exact (Option.some.inj hc).symm

/-- Behind the first `key` with a colon in the fields: it ends a name, or stands in a value. -/
def mentionIn (key : Bytes) : List Field → Option Place
  | [] => none
  | f :: fields =>
    if key <:+ f.name then some (f.value, fields)
    else
      match behind (key ++ str ":") f.value with
      | some text => some (text, fields)
      | none => mentionIn key fields

/-- Behind the first `key` with a colon in the status line or the fields. -/
def mention (key line : Bytes) (fields : List Field) : Option Place :=
  match behind (key ++ str ":") line with
  | some text => some (text, fields)
  | none => mentionIn key fields

/-- `word` stands in the status line, a name or a value. -/
def Mentioned (word line : Bytes) (fields : List Field) : Prop :=
  word <:+: line ∨ ∃ f ∈ fields, word <:+: f.name ∨ word <:+: f.value

/-- The first field of a name, with the fields behind it. -/
def firstField (key : Bytes) : List Field → Option (Field × List Field)
  | [] => none
  | f :: fields => if f.named key then some (f, fields) else firstField key fields

theorem firstField_fst (key : Bytes) (fields : List Field) :
    (firstField key fields).map Prod.fst = fieldOf key fields := by
  induction fields with
  | nil => rfl
  | cons f fields ih =>
    rw [firstField, fieldOf, List.find?_cons]
    cases f.named key with
    | true => rfl
    | false => exact ih

/-! ### Searching line by line -/

section Searching

variable {pat key word line : Bytes}

/-- A pattern within a line is in the line, or in the lines behind it. -/
theorem behind_line (hpat : pat ≠ []) (hcr : 13 ∉ pat) (line : Bytes) (fields : List Field) :
    behind pat (line ++ fieldLines fields) =
      match behind pat line with
      | some text => some (text ++ fieldLines fields)
      | none => behind pat (fieldLines fields) := by
  cases fields with
  | nil =>
    rw [fieldLines_nil, List.append_nil, behind_nil hpat]
    cases behind pat line with
    | some text => exact congrArg some (List.append_nil text).symm
    | none => rfl
  | cons f fields =>
    rw [fieldLines_cons, behind_append_cons hpat hcr, behind_cons_of_not_mem hpat hcr]
    cases behind pat line <;> rfl

/-- A pattern within a line is in the first field line, or in those behind it. -/
theorem behind_cons_fields (hpat : pat ≠ []) (hcr : 13 ∉ pat) (f : Field) (fields : List Field) :
    behind pat (fieldLines (f :: fields)) =
      match behind pat f.line with
      | some text => some (text ++ fieldLines fields)
      | none => behind pat (fieldLines fields) := by
  rw [fieldLines_cons, behind_cons_of_not_mem hpat hcr, behind_line hpat hcr]

/-- The searches for a key with a colon, in the fields. -/
theorem behind_fieldLines (hkey : 13 ∉ key ∧ 10 ∉ key ∧ 58 ∉ key) (fields : List Field) :
    behind (key ++ str ":") (fieldLines fields) = (mentionIn key fields).map Place.text := by
  have hcolon : str ":" = [58] := rfl
  have hpat : key ++ [58] ≠ [] := by simp
  have hcr : 13 ∉ key ++ [58] := by simp [hkey.1]
  have hlf : 10 ∉ key ++ [58] := by simp [hkey.2.1]
  rw [hcolon]
  induction fields with
  | nil => rw [fieldLines_nil, behind_nil hpat, mentionIn, Option.map_none]
  | cons f fields ih =>
    rw [behind_cons_fields hpat hcr, Field.line, behind_cons_of_not_mem hpat hlf,
      behind_mark hkey.2.2 f.name_ok.2, mentionIn, hcolon, ih]
    split_ifs with hname
    · rfl
    · cases behind (key ++ [58]) f.value <;> rfl

/-- **The searches for a key with a colon**, line by line. -/
theorem behind_head (hkey : 13 ∉ key ∧ 10 ∉ key ∧ 58 ∉ key) (line : Bytes) (fields : List Field) :
    behind (key ++ str ":") (line ++ fieldLines fields) = (mention key line fields).map Place.text := by
  have hpat : key ++ str ":" ≠ [] := List.append_ne_nil_of_right_ne_nil _ (List.cons_ne_nil 58 [])
  have hcr : 13 ∉ key ++ str ":" := fun hc => by
    rcases List.mem_append.mp hc with hc | hc
    · exact hkey.1 hc
    · exact absurd hc (by decide)
  rw [behind_line hpat hcr, behind_fieldLines hkey, mention]
  cases behind (key ++ str ":") line <;> rfl

/-- A word within a line is in the first line, or in one of the field lines. -/
theorem infix_lines (hne : word ≠ []) (hcr : 13 ∉ word) (line : Bytes) (fields : List Field) :
    word <:+: line ++ fieldLines fields ↔ word <:+: line ∨ ∃ f ∈ fields, word <:+: f.line := by
  induction fields generalizing line with
  | nil => simp
  | cons f fields ih =>
    rw [fieldLines_cons, infix_append_cons_iff hne hcr, ih]
    simp

/-- **The searches for a word**, line by line. -/
theorem infix_head (hne : word ≠ []) (hword : 13 ∉ word ∧ 10 ∉ word ∧ 58 ∉ word) (line : Bytes)
    (fields : List Field) : word <:+: line ++ fieldLines fields ↔ Mentioned word line fields := by
  have hfield : ∀ f : Field, word <:+: f.line ↔ word <:+: f.name ∨ word <:+: f.value := by
    intro f
    rw [Field.line, infix_cons_iff_of_not_mem hne hword.2.1, infix_append_cons_iff hne hword.2.2]
  rw [Mentioned, infix_lines hne hword.1]
  simp only [hfield]

end Searching

/-! ### Heads in lower case -/

section Lower

variable {key statusLine : Bytes} {fields : List Field}

theorem mem_toLower {d : UInt8} (hd : d.toNat < 65) {s : Bytes} : d ∈ toLower s ↔ d ∈ s := by
  rw [toLower, List.mem_map]
  constructor
  · rintro ⟨c, hc, h⟩
    rwa [← (lowerByte_ne hd).mp h]
  · intro h
    exact ⟨d, h, (lowerByte_ne hd).mpr rfl⟩

/-- The field in lower case. -/
def Field.lower (f : Field) : Field where
  name := toLower f.name
  value := toLower f.value
  name_ok := ⟨fun h => f.name_ok.1 ((mem_toLower (by decide)).mp h),
    fun h => f.name_ok.2 ((mem_toLower (by decide)).mp h)⟩
  value_ok := fun h => f.value_ok ((mem_toLower (by decide)).mp h)

theorem toLower_fieldLines (fields : List Field) :
    toLower (fieldLines fields) = fieldLines (fields.map Field.lower) := by
  induction fields with
  | nil => rfl
  | cons f fields ih =>
    have hline : toLower (13 :: f.line) = 13 :: f.lower.line := by
      show 13 :: 10 :: toLower (f.name ++ 58 :: f.value) = _
      rw [toLower_append]
      rfl
    rw [List.map_cons, fieldLines_cons, fieldLines_cons, ← List.cons_append, toLower_append, hline, ih]
    rfl

theorem toLower_head (statusLine : Bytes) (fields : List Field) :
    toLower (statusLine ++ fieldLines fields) =
      toLower statusLine ++ fieldLines (fields.map Field.lower) := by
  rw [toLower_append, toLower_fieldLines]

/-- **The search for the length** finds the field of that name and no other. -/
theorem behind_length (hline : 13 ∉ statusLine) (hkey : 58 ∉ key) (fields : List Field) :
    behind (fieldMarker key) (toLower (statusLine ++ fieldLines fields)) =
      (firstField key fields).map fun p => toLower (Place.text (p.1.value, p.2)) := by
  have hmarker : fieldMarker key = 13 :: 10 :: (key ++ [58]) := rfl
  rw [toLower_append, hmarker, behind_skip _ fun h => hline ((mem_toLower (by decide)).mp h)]
  induction fields with
  | nil => rfl
  | cons f fields ih =>
    have hfield : toLower (fieldLines (f :: fields)) =
        13 :: 10 :: (toLower f.name ++ 58 :: toLower (f.value ++ fieldLines fields)) := by
      rw [toLower_fieldLines, List.map_cons, fieldLines_cons, Field.line, toLower_append, toLower_fieldLines]
      simp [Field.lower]
    have hname : 58 ∉ toLower f.name := fun h => f.name_ok.2 ((mem_toLower (by decide)).mp h)
    rw [firstField, Field.named]
    by_cases h : toLower f.name = key
    · rw [if_pos (beq_iff_eq.mpr h), hfield, h]
      have hsplit : (13 : UInt8) :: 10 :: (key ++ 58 :: toLower (f.value ++ fieldLines fields)) =
          13 :: 10 :: (key ++ [58]) ++ toLower (f.value ++ fieldLines fields) := by simp
      rw [hsplit, behind_of_isPrefix]
      rfl
    · have hstart : ¬ 13 :: 10 :: (key ++ [58]) <+:
          13 :: 10 :: (toLower f.name ++ 58 :: toLower (f.value ++ fieldLines fields)) := by
        rw [List.cons_prefix_cons, List.cons_prefix_cons, isPrefix_mark_iff hkey hname]
        exact fun hp => h hp.2.2.symm
      have hskip : (10 : UInt8) :: (toLower f.name ++ 58 :: toLower (f.value ++ fieldLines fields)) =
          10 :: (toLower f.name ++ 58 :: toLower f.value) ++ toLower (fieldLines fields) := by
        rw [toLower_append]
        simp
      rw [if_neg fun hb => h (beq_iff_eq.mp hb), hfield, behind_cons_of_not hstart, hskip, behind_skip, ih]
      exact f.lower.line_ok

end Lower

/-! ### The decisions, line by line -/

section Decisions

variable {statusLine : Bytes} {fields : List Field}

theorem readLong_blank {s : Bytes} (hs : s.all Numeral.isSpace = true) : readLong s = none := by
  have h := @readLong_append s [] fun c hc => by cases hc
  rwa [List.append_nil, if_pos hs] at h

theorem looksChunked_iff (statusLine : Bytes) (fields : List Field) :
    looksChunked (toLower (statusLine ++ fieldLines fields)) = true ↔
      (mention (str "transfer-encoding") (toLower statusLine) (fields.map Field.lower)).isSome ∧
      Mentioned (str "chunked") (toLower statusLine) (fields.map Field.lower) := by
  have hkey : 13 ∉ str "transfer-encoding" ∧ 10 ∉ str "transfer-encoding" ∧
      58 ∉ str "transfer-encoding" := by decide
  have hmarker : str "transfer-encoding:" = str "transfer-encoding" ++ str ":" := rfl
  have hne : str "chunked" ≠ [] := List.cons_ne_nil _ _
  rw [looksChunked, Bool.and_eq_true, find_isSome_iff, find_isSome_iff, toLower_head,
    infix_head hne (by decide), hmarker, ← behind_isSome_iff, behind_head hkey, Option.isSome_map]

/-- A coding that the fields have is found. -/
theorem looksChunked_of_coded (hline : 13 ∉ statusLine) (h : codedChunked fields = true) :
    looksChunked (toLower (statusLine ++ fieldLines fields)) = true := by
  obtain ⟨f, hf, hcoding⟩ := List.any_eq_true.mp h
  rw [Bool.and_eq_true, Field.named, beq_iff_eq, beq_iff_eq] at hcoding
  have hfield : HasField (statusLine ++ fieldLines fields) (str "transfer-encoding") f.value :=
    (hasField_iff hline (by decide) fields).mpr ⟨f, hf, hcoding.1, rfl⟩
  refine looksChunked_of_field hfield ?_
  have hinfix : trimBlanks (f.value.rtakeWhile (· != 44)) <:+: f.value :=
    ((List.rdropWhile_prefix _ _).isInfix.trans (List.dropWhile_suffix _).isInfix).trans
      (List.rtakeWhile_suffix _ _).isInfix
  rw [← hcoding.2]
  exact hinfix.map lowerByte

/-- The end of the body that the code reads. -/
theorem headFraming_eq (hline : 13 ∉ statusLine) (fields : List Field) :
    headFraming (statusLine ++ fieldLines fields) =
      if looksChunked (toLower (statusLine ++ fieldLines fields)) then .chunked
      else
        match firstField (str "content-length") fields with
        | some (f, rest) => .length (Place.number (f.value, rest))
        | none => .close := by
  have hsearch := behind_length hline (show 58 ∉ str "content-length" by decide) fields
  rw [headFraming]
  split_ifs with hchunked
  · rfl
  · rw [behind, show fieldMarker (str "content-length") = lengthMarker from rfl] at hsearch
    cases hfind : find lengthMarker (toLower (statusLine ++ fieldLines fields)) with
    | none =>
      rw [hfind, Option.map_none] at hsearch
      rw [Option.map_eq_none_iff.mp hsearch.symm]
    | some pos =>
      rw [hfind, Option.map_some] at hsearch
      obtain ⟨⟨f, rest⟩, hfirst, htext⟩ := Option.map_eq_some_iff.mp hsearch.symm
      rw [hfirst]
      dsimp only
      rw [← htext, readLong_toLower, readLong_text]

/-- The length of the JSON header that the code reads. -/
theorem parseInferenceHeaderLength_eq (statusLine : Bytes) (fields : List Field) :
    parseInferenceHeaderLength (statusLine ++ fieldLines fields) =
      ((mention inferenceKey (toLower statusLine) (fields.map Field.lower)).bind Place.number).getD (-1) := by
  have hkey : 13 ∉ inferenceKey ∧ 10 ∉ inferenceKey ∧ 58 ∉ inferenceKey := by decide
  have hsearch := behind_head hkey (toLower statusLine) (fields.map Field.lower)
  have hblank : ∀ c : UInt8, (c == 32 || c == 9) = true → Numeral.isSpace c = true := by
    intro c hc
    rw [Bool.or_eq_true, beq_iff_eq, beq_iff_eq] at hc
    rcases hc with rfl | rfl <;> decide
  rw [← toLower_head, behind] at hsearch
  have hmarker : str "inference-header-content-length:" = inferenceKey ++ str ":" := rfl
  rw [parseInferenceHeaderLength, hmarker]
  cases hfind : find (inferenceKey ++ str ":") (toLower (statusLine ++ fieldLines fields)) with
  | none =>
    rw [hfind, Option.map_none] at hsearch
    rw [Option.map_eq_none_iff.mp hsearch.symm]
    rfl
  | some pos =>
    rw [hfind, Option.map_some] at hsearch
    obtain ⟨place, hplace, htext⟩ := Option.map_eq_some_iff.mp hsearch.symm
    have hnumber : place.number = readLong (((statusLine ++ fieldLines fields).drop
        (pos + (inferenceKey ++ str ":").length)).dropWhile fun c => c == 32 || c == 9) := by
      rw [readLong_dropWhile hblank, ← readLong_toLower, ← readLong_text, htext, toLower, toLower,
        List.map_drop]
    rw [hplace, Option.bind_some, hnumber, readLong]
    dsimp only
    cases stol (((statusLine ++ fieldLines fields).drop
      (pos + (inferenceKey ++ str ":").length)).dropWhile fun c => c == 32 || c == 9) <;> rfl

end Decisions

/-! ### Heads that are read as their fields say -/

section Recognition

variable (statusLine : Bytes) (fields : List Field)

/-- The code reads the head as its fields say. -/
structure Recognised : Prop where
  framing : headFraming (statusLine ++ fieldLines fields) = fieldFraming fields
  absent : fieldOf inferenceKey fields = none →
    parseInferenceHeaderLength (statusLine ++ fieldLines fields) = -1
  present : ∀ f, fieldOf inferenceKey fields = some f → ∃ n, readLong f.value = some n ∧ n ≠ -1 ∧
    parseInferenceHeaderLength (statusLine ++ fieldLines fields) = n

/-- The place of the first `inference-header-content-length:` in a name or in text. -/
def inferencePlace : Option Place :=
  mention inferenceKey (toLower statusLine) (fields.map Field.lower)

/-- No text outside the fields of the three names misleads the code. -/
structure Unmistaken : Prop where
  /-- the two words for the chunked coding do not both stand in the head for other reasons -/
  coding : codedChunked fields = false →
    mention (str "transfer-encoding") (toLower statusLine) (fields.map Field.lower) = none ∨
      ¬ Mentioned (str "chunked") (toLower statusLine) (fields.map Field.lower)
  /-- a blank length is not followed by a line that starts with a number -/
  length : codedChunked fields = false → ∀ f rest, firstField (str "content-length") fields = some (f, rest) →
    f.value.all Numeral.isSpace = true → readLong (fieldLines rest) = none
  /-- without the field of that name, there is no number at another place -/
  absent : fieldOf inferenceKey fields = none →
    ∀ place, inferencePlace statusLine fields = some place → ∀ n, place.number = some n → n = -1
  /-- with the field of that name, the first place has its number -/
  present : ∀ f, fieldOf inferenceKey fields = some f → ∃ n, readLong f.value = some n ∧ n ≠ -1 ∧
    ∃ place, inferencePlace statusLine fields = some place ∧ place.number = some n

variable {statusLine fields}

/-- The number at a field is its own, unless it is blank with a number behind it. -/
theorem number_eq_iff (value : Bytes) (rest : List Field) :
    Place.number (value, rest) = readLong value ↔
      (value.all Numeral.isSpace = true → readLong (fieldLines rest) = none) := by
  rw [Place.number]
  by_cases hblank : value.all Numeral.isSpace = true
  · rw [if_pos hblank, readLong_blank hblank]
    exact ⟨fun h _ => h, fun h => h hblank⟩
  · rw [if_neg hblank]
    exact iff_of_true rfl fun h => absurd h hblank

theorem framing_iff (hline : 13 ∉ statusLine) :
    headFraming (statusLine ++ fieldLines fields) = fieldFraming fields ↔
      (codedChunked fields = false →
        mention (str "transfer-encoding") (toLower statusLine) (fields.map Field.lower) = none ∨
          ¬ Mentioned (str "chunked") (toLower statusLine) (fields.map Field.lower)) ∧
      (codedChunked fields = false → ∀ f rest, firstField (str "content-length") fields = some (f, rest) →
        f.value.all Numeral.isSpace = true → readLong (fieldLines rest) = none) := by
  have hlooks := looksChunked_iff statusLine fields
  rw [headFraming_eq hline, fieldFraming, ← firstField_fst]
  by_cases hcoded : codedChunked fields = true
  · rw [if_pos (looksChunked_of_coded hline hcoded), if_pos hcoded, hcoded]
    exact iff_of_true rfl ⟨fun h => Bool.noConfusion h, fun h => Bool.noConfusion h⟩
  · rw [if_neg hcoded, ← Option.not_isSome_iff_eq_none, ← not_and_or, ← hlooks]
    rw [Bool.not_eq_true] at hcoded
    by_cases hchunked : looksChunked (toLower (statusLine ++ fieldLines fields)) = true
    · rw [if_pos hchunked]
      refine iff_of_false (fun h => ?_) fun h => h.1 hcoded hchunked
      cases hfirst : firstField (str "content-length") fields with
      | none => rw [hfirst] at h; cases h
      | some p => rw [hfirst] at h; cases h
    · rw [if_neg hchunked, and_iff_right fun _ => hchunked]
      cases hfirst : firstField (str "content-length") fields with
      | none => exact iff_of_true rfl fun _ f rest h => absurd h.symm (Option.some_ne_none _)
      | some p =>
        obtain ⟨g, behind⟩ := p
        rw [Option.map_some, BodyEnd.length.injEq, number_eq_iff]
        constructor
        · intro h _ f rest hp
          cases hp
          exact h
        · intro h
          exact h hcoded g behind rfl

/-- The code reads no length exactly if the place has no number but −1. -/
theorem inference_absent_iff (statusLine : Bytes) (fields : List Field) :
    parseInferenceHeaderLength (statusLine ++ fieldLines fields) = -1 ↔
      ∀ place, inferencePlace statusLine fields = some place → ∀ n, place.number = some n → n = -1 := by
  rw [parseInferenceHeaderLength_eq, ← inferencePlace]
  constructor
  · intro h place hplace n hn
    rwa [hplace, Option.bind_some, hn, Option.getD_some] at h
  · intro h
    cases hplace : (inferencePlace statusLine fields).bind Place.number with
    | none => rfl
    | some n =>
      obtain ⟨place, hp, hn⟩ := Option.bind_eq_some_iff.mp hplace
      exact h place hp n hn

/-- The code reads a length exactly if the place has its number. -/
theorem inference_present_iff {n : ℤ} (hne : n ≠ -1) (statusLine : Bytes) (fields : List Field) :
    parseInferenceHeaderLength (statusLine ++ fieldLines fields) = n ↔
      ∃ place, inferencePlace statusLine fields = some place ∧ place.number = some n := by
  rw [parseInferenceHeaderLength_eq, ← inferencePlace, ← Option.bind_eq_some_iff]
  cases (inferencePlace statusLine fields).bind Place.number with
  | none => exact iff_of_false (fun h => hne h.symm) fun h => Option.some_ne_none _ h.symm
  | some m => rw [Option.getD_some, Option.some.injEq]

/-- A head is used for the end of the body and the length of the JSON header only. -/
theorem head_decides (hline : 13 ∉ statusLine) (fields : List Field) (body : Bytes) {raw : Bytes}
    (hraw : raw = statusLine ++ fieldLines fields ++ crlf2 ++ body) :
    messageComplete raw = (headFraming (statusLine ++ fieldLines fields)).complete
      (statusLine ++ fieldLines fields).length raw ∧
    parseHttpResponse raw = (do
      let status ← parseStatus raw
      let body ← (headFraming (statusLine ++ fieldLines fields)).decode body
      pure ⟨status, body, parseInferenceHeaderLength (statusLine ++ fieldLines fields)⟩) := by
  subst hraw
  have hfind := (ResponseHead.ofFields statusLine hline fields).find_terminator body
  have hcomplete := messageComplete_framing hfind
  have hparse := parseHttpResponse_framing hfind
  rw [ResponseHead.take_bytes] at hcomplete
  rw [ResponseHead.take_bytes, ResponseHead.drop_bytes] at hparse
  exact ⟨hcomplete, hparse⟩

/-- **Framing fields as substrings**: the code uses a head for these three things only, and it reads them as
the fields say exactly if no other text misleads it. -/
theorem recognised_iff (hline : 13 ∉ statusLine) (fields : List Field) :
    (∀ body raw, raw = statusLine ++ fieldLines fields ++ crlf2 ++ body →
      messageComplete raw = (headFraming (statusLine ++ fieldLines fields)).complete
        (statusLine ++ fieldLines fields).length raw ∧
      parseHttpResponse raw = (do
        let status ← parseStatus raw
        let body ← (headFraming (statusLine ++ fieldLines fields)).decode body
        pure ⟨status, body, parseInferenceHeaderLength (statusLine ++ fieldLines fields)⟩)) ∧
    (Recognised statusLine fields ↔ Unmistaken statusLine fields) := by
  refine ⟨fun body raw hraw => head_decides hline fields body hraw, ?_⟩
  constructor
  · intro h
    obtain ⟨hcoding, hlength⟩ := (framing_iff hline).mp h.framing
    refine ⟨hcoding, hlength, fun hnone => ?_, fun f hf => ?_⟩
    · exact (inference_absent_iff statusLine fields).mp (h.absent hnone)
    · obtain ⟨n, hn, hne, hread⟩ := h.present f hf
      exact ⟨n, hn, hne, (inference_present_iff hne statusLine fields).mp hread⟩
  · intro h
    refine ⟨(framing_iff hline).mpr ⟨h.coding, h.length⟩, fun hnone => ?_, fun f hf => ?_⟩
    · exact (inference_absent_iff statusLine fields).mpr (h.absent hnone)
    · obtain ⟨n, hn, hne, hplace⟩ := h.present f hf
      exact ⟨n, hn, hne, (inference_present_iff hne statusLine fields).mpr hplace⟩

end Recognition

/-! ### Sample heads -/

theorem sampleNames_ok : (13 ∉ inferenceKey ∧ 58 ∉ inferenceKey) ∧
    (13 ∉ str "X-Inference-Header-Content-Length" ∧ 58 ∉ str "X-Inference-Header-Content-Length") ∧
    13 ∉ str "X-Note" ∧ 58 ∉ str "X-Note" := by decide

theorem sampleValues_ok : 13 ∉ str " 2" ∧ 13 ∉ str " transfer-encoding: chunked" := by decide

def inferenceField : Field := ⟨inferenceKey, str " 2", sampleNames_ok.1, sampleValues_ok.1⟩

/-- A field of a longer name. -/
def longerField : Field :=
  ⟨str "X-Inference-Header-Content-Length", str " 2", sampleNames_ok.2.1, sampleValues_ok.1⟩

/-- A field with the text of another one in its value. -/
def noteField : Field :=
  ⟨str "X-Note", str " transfer-encoding: chunked", sampleNames_ok.2.2, sampleValues_ok.2⟩

theorem recognised_inferenceField : Recognised okLine [inferenceField] := by
  refine (recognised_iff okLine_ok [inferenceField]).2.mpr
    ⟨fun _ => .inl rfl, fun _ f rest h => ?_, fun h => ?_, fun f hf => ?_⟩
  · cases h
  · cases h
  · cases hf
    exact ⟨2, rfl, by decide, _, rfl, rfl⟩

/-- A field of a longer name, and text in a value, are taken for the fields. -/
theorem recognised_misread :
    (fieldOf inferenceKey [longerField] = none ∧
      parseHttpResponse (okLine ++ fieldLines [longerField] ++ crlf2 ++ str "{}") = .ok ⟨200, str "{}", 2⟩) ∧
    (fieldFraming [noteField] = .close ∧
      parseHttpResponse (okLine ++ fieldLines [noteField] ++ crlf2 ++ str "{}") = .ok ⟨200, [], -1⟩) ∧
    ¬ Recognised okLine [longerField] ∧ ¬ Recognised okLine [noteField] := by
  refine ⟨⟨rfl, by decide +kernel⟩, ⟨rfl, by decide +kernel⟩, fun h => ?_, fun h => ?_⟩
  · exact absurd (h.absent rfl) (by decide +kernel)
  · exact absurd h.framing (by decide +kernel)

end KserveClient
