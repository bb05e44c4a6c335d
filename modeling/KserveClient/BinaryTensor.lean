import KserveClient.Json

/-!
# KserveClient.BinaryTensor — the binary tensor data extension

The helpers that put raw tensors behind a JSON header and take them out again.  `BinaryNode` says that
a tensor node announces a given number of bytes, and `sliceBlob_append` that a slice at the announced
place is the tensor's own bytes.
-/

namespace KserveClient

open Json

/-- `blob.insert(blob.end(), bytes.begin(), bytes.end())`, and `append` on a string. -/
def appendBlob (blob bytes : Bytes) : Outcome Bytes :=
  if blob.length + bytes.length < maxSize then .ok (blob ++ bytes) else .throws .lengthError

/-- The node of a binary input, and the blob with its bytes appended. -/
def appendBinaryInput (name datatype : Bytes) (shape : List Int64) (bytes blob : Bytes) :
    Outcome (Json × Bytes) := do
  let node ← Json.null.assign (str "name") (toJson name)
  let node ← node.assign (str "datatype") (toJson datatype)
  let node ← node.assign (str "shape") (toJson shape)
  let parameters ← Json.null.assign (str "binary_data_size") (toJson (UInt64.ofNat bytes.length))
  let node ← node.assign (str "parameters") parameters
  let blob ← appendBlob blob bytes
  pure (node, blob)

def requestBinaryOutput (name : Bytes) : Outcome Json := do
  let node ← Json.null.assign (str "name") (toJson name)
  let parameters ← Json.null.assign (str "binary_data") (toJson true)
  node.assign (str "parameters") parameters

/-- `parameters.binary_data_size`, −1 when there is none. -/
def binaryDataSize (node : Json) : Outcome Int64 :=
  if !node.contains (str "parameters") then pure (-1)
  else do
    let params ← node.subscript (str "parameters")
    if !params.contains (str "binary_data_size") then pure (-1)
    else do
      let size ← params.subscript (str "binary_data_size")
      size.get Int64

/-- The JSON header and the blob behind it. -/
def splitBinaryBody (lib : JsonLib) (body : Bytes) (headerLen : ℕ) : Outcome (Json × Bytes) :=
  if body.length < headerLen then
    throwRuntime (str "invalid binary response: header length exceeds body")
  else do
    let header ← lib.parse (body.take headerLen)
    pure (header, body.drop headerLen)

def sliceBlob (blob : Bytes) (offset size : ℕ) : Outcome Bytes :=
  if blob.length < offset ∨ blob.length - offset < size then
    throwRuntime (str "invalid binary response: tensor slice runs past the blob")
  else .ok ((blob.drop offset).take size)

/-! ### Nodes -/

variable {members : List (Bytes × Json)} {key : Bytes} {v : Json}

theorem contains_object (h : members.lookup key = some v) :
    (Json.object members).contains key = true := by
  rw [Json.contains, h]
  rfl

theorem subscript_object (h : members.lookup key = some v) :
    (Json.object members).subscript key = .ok v := by
  rw [Json.subscript, h]

/-- The members announce a binary tensor of `n` bytes. -/
def BinaryNode (members : List (Bytes × Json)) (n : ℕ) : Prop :=
  ∃ params size, members.lookup (str "parameters") = some (.object params) ∧
    params.lookup (str "binary_data_size") = some size ∧ size.IsInt n

/-- The members announce no binary tensor. -/
def InlineNode (members : List (Bytes × Json)) : Prop :=
  ∀ params, members.lookup (str "parameters") = some params →
    params.contains (str "binary_data_size") = false

theorem inlineNode_of_lookup (h : members.lookup (str "parameters") = none) : InlineNode members :=
  fun params hp => by
    rw [h] at hp
    cases hp

theorem binaryDataSize_binary {n : ℕ} (h : BinaryNode members n) :
    binaryDataSize (.object members) = .ok (Int64.ofInt n) := by
  obtain ⟨params, size, hp, hs, hn⟩ := h
  rw [binaryDataSize, contains_object hp, subscript_object hp]
  simp only [Bool.not_true, Bool.false_eq_true, if_false, Outcome.ok_bind, contains_object hs,
    subscript_object hs]
  exact hn.get_int64

theorem binaryDataSize_inline (h : InlineNode members) :
    binaryDataSize (.object members) = .ok (-1) := by
  rw [binaryDataSize]
  cases hp : members.lookup (str "parameters") with
  | none =>
    rw [if_pos (by rw [Json.contains, hp]; rfl)]
    rfl
  | some params =>
    rw [contains_object hp, subscript_object hp]
    simp only [Bool.not_true, Bool.false_eq_true, if_false, Outcome.ok_bind, h params hp,
      Bool.not_false, if_true]
    rfl

/-- **A slice at the end of the part before it** is the part itself. -/
theorem sliceBlob_append (before bytes rest : Bytes) :
    sliceBlob (before ++ bytes ++ rest) before.length bytes.length = .ok bytes := by
  rw [sliceBlob, if_neg (by simp), List.append_assoc, List.drop_left, List.take_left]

end KserveClient
