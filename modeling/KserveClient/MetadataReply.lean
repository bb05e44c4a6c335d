import KserveClient.HttpOperations

/-!
# KserveClient.MetadataReply — which metadata documents are read, and what is read from them

`tensorSpec` reads a node that is `Readable`, throws on one that is `Rejected` and looks up a missing key
in one that is `Nameless`.  The loop over the outputs keeps the names it has read when it stops:

* `readOutputs_ok`, `readOutputs_stops`: the outputs and the names at the end of the loop.
* `decodeMetadata_reaches`: on a document that `ReachesInputs`, decoding is reading its two lists.
-/

namespace KserveClient

open Json Outcome

/-! ### Strings and numbers -/

theorem Json.get_bytes_eq_ok {j : Json} {s : Bytes} : j.get Bytes = .ok s ↔ j = .string s := by
  cases j with
  | string t =>
    rw [get_string, Outcome.ok.injEq, Json.string.injEq]
  | _ => exact ⟨nofun, nofun⟩

/-- Anything but a string is refused. -/
theorem Json.get_bytes_throws {j : Json} (h : ∀ s, j ≠ .string s) :
    j.get Bytes = .throws (.jsonTypeError 302) := by
  cases j with
  | string s => exact absurd rfl (h s)
  | _ => rfl

/-- A number of one of the library's three number types. -/
def Json.IsNumber : Json → Prop
  | .integer _ | .unsigned _ | .float _ => True
  | _ => False

theorem Json.get_int64_throws_iff {j : Json} :
    (∃ e, j.get Int64 = .throws e) ↔ ¬ j.IsNumber := by
  cases j with
  | integer i => exact ⟨nofun, fun h => absurd trivial h⟩
  | unsigned n => exact ⟨nofun, fun h => absurd trivial h⟩
  | float x =>
    refine ⟨fun ⟨e, h⟩ => ?_, fun h => absurd trivial h⟩
    have hcast : (StaticCast.cast x : Outcome Int64) = .throws e := h
    rcases cast_float_cases (α := Int64) x with ⟨i, hi⟩ | hx
    · rw [hi] at hcast
      cases hcast
    · rw [hx] at hcast
      cases hcast
  | _ => exact ⟨fun _ => id, fun _ => ⟨_, rfl⟩⟩

/-- A member that is a string if it is there. -/
def Json.OptionalString (members : List (Bytes × Json)) (key : Bytes) : Prop :=
  ∀ v, members.lookup key = some v → ∃ s, v = .string s

theorem Json.value_ok_iff {members : List (Bytes × Json)} {key default : Bytes} :
    (∃ s, (Json.object members).value key default = .ok s) ↔ OptionalString members key := by
  rw [Json.value, OptionalString]
  cases members.lookup key with
  | none => simp
  | some v =>
    dsimp only
    constructor
    · rintro ⟨s, hs⟩ w hw
      cases hw
      exact ⟨s, get_bytes_eq_ok.mp hs⟩
    · intro h
      obtain ⟨s, rfl⟩ := h v rfl
      exact ⟨s, rfl⟩

theorem Json.value_throws {members : List (Bytes × Json)} {key : Bytes} (default : Bytes)
    (h : ¬ OptionalString members key) :
    (Json.object members).value key default = .throws (.jsonTypeError 302) := by
  rw [OptionalString] at h
  push Not at h
  obtain ⟨v, hv, hstring⟩ := h
  rw [Json.value, hv]
  exact get_bytes_throws hstring

theorem Json.value_throws_iff {members : List (Bytes × Json)} {key default : Bytes} :
    (∃ e, (Json.object members).value key default = .throws e) ↔ ¬ OptionalString members key := by
  refine ⟨fun ⟨e, he⟩ h => ?_, fun h => ⟨_, value_throws default h⟩⟩
  obtain ⟨s, hs⟩ := (@value_ok_iff members key default).mpr h
  rw [hs] at he
  cases he

namespace HttpClient

/-! ### Nodes -/

/-- The elements of a shape are numbers that an `int64_t` holds. -/
def ShapeOk (members : List (Bytes × Json)) : Prop :=
  ∀ dims, members.lookup (str "shape") = some dims → ∀ dim ∈ dims.elements, ∃ i, dim.get Int64 = .ok i

/-- Behind numbers that an `int64_t` holds, the shape has an element that is no number. -/
def ShapeRejected (members : List (Bytes × Json)) : Prop :=
  ∃ dims before dim after, members.lookup (str "shape") = some dims ∧
    dims.elements = before ++ dim :: after ∧ (∀ d ∈ before, ∃ i, d.get Int64 = .ok i) ∧ ¬ dim.IsNumber

/-- A tensor's node with a name, and a datatype and a shape that are as they should be if they are there. -/
def Readable (node : Json) : Prop :=
  ∃ members name, node = .object members ∧ members.lookup (str "name") = some (.string name) ∧
    OptionalString members (str "datatype") ∧ ShapeOk members

/-- An object without a name. -/
def Nameless (node : Json) : Prop :=
  ∃ members, node = .object members ∧ members.lookup (str "name") = none

/-- A node whose first wrongly typed member is one that the client refuses. -/
def Rejected (node : Json) : Prop :=
  (∀ members, node ≠ .object members) ∨ ∃ members, node = .object members ∧
    ((∃ name, members.lookup (str "name") = some name ∧ ∀ s, name ≠ .string s) ∨
      (∃ s, members.lookup (str "name") = some (.string s)) ∧
        (¬ OptionalString members (str "datatype") ∨
          OptionalString members (str "datatype") ∧ ShapeRejected members))

/-! ### Reading a node -/

theorem readShape_none {members : List (Bytes × Json)} (h : members.lookup (str "shape") = none) :
    readShape (.object members) = .ok [] := by
  rw [readShape, Json.contains, h]
  rfl

theorem readShape_some {members : List (Bytes × Json)} {dims : Json}
    (h : members.lookup (str "shape") = some dims) :
    readShape (.object members) = dims.elements.mapM fun dim => dim.get Int64 := by
  rw [readShape, contains_object h, subscript_object h]
  rfl

theorem readShape_ok_iff {members : List (Bytes × Json)} :
    (∃ dims, readShape (.object members) = .ok dims) ↔ ShapeOk members := by
  rw [ShapeOk]
  cases h : members.lookup (str "shape") with
  | none => simp [readShape_none h]
  | some dims => simp [readShape_some h, mapM_ok_iff]

theorem readShape_throws_iff {members : List (Bytes × Json)} :
    (∃ e, readShape (.object members) = .throws e) ↔ ShapeRejected members := by
  rw [ShapeRejected]
  cases h : members.lookup (str "shape") with
  | none => simp [readShape_none h]
  | some dims =>
    rw [readShape_some h, mapM_throws_iff]
    simp [get_int64_throws_iff]

/-- A node with a name is read by reading its datatype and its shape. -/
theorem tensorSpec_named {members : List (Bytes × Json)} {name : Bytes}
    (h : members.lookup (str "name") = some (.string name)) :
    tensorSpec (.object members) = (do
      let datatype ← (Json.object members).value (str "datatype") (str "FP32")
      let shape ← readShape (.object members)
      pure ⟨name, datatype, shape⟩) := by
  rw [tensorSpec, subscript_object h]
  rfl

theorem tensorSpec_nameless {node : Json} (h : Nameless node) :
    tensorSpec node = .undefined .missingKey := by
  obtain ⟨members, rfl, hname⟩ := h
  rw [tensorSpec, Json.subscript, hname]
  rfl

theorem tensorSpec_not_object {node : Json} (h : ∀ members, node ≠ .object members) :
    tensorSpec node = .throws (.jsonTypeError 305) := by
  cases node with
  | object members => exact absurd rfl (h members)
  | _ => rfl

theorem tensorSpec_misnamed {members : List (Bytes × Json)} {name : Json}
    (h : members.lookup (str "name") = some name) (hstring : ∀ s, name ≠ .string s) :
    tensorSpec (.object members) = .throws (.jsonTypeError 302) := by
  rw [tensorSpec, subscript_object h, ok_bind, get_bytes_throws hstring]
  rfl

/-- A node is no object, an object without a name, with a name that is no string, or with a string. -/
theorem node_cases (node : Json) : (∀ members, node ≠ .object members) ∨ Nameless node ∨
    ∃ members, node = .object members ∧
      ((∃ name, members.lookup (str "name") = some name ∧ ∀ s, name ≠ .string s) ∨
        ∃ s, members.lookup (str "name") = some (.string s)) := by
  cases node with
  | object members =>
    cases hname : members.lookup (str "name") with
    | none => exact .inr (.inl ⟨members, rfl, hname⟩)
    | some name =>
      refine .inr (.inr ⟨members, rfl, ?_⟩)
      by_cases hstring : ∃ s, name = .string s
      · obtain ⟨s, rfl⟩ := hstring
        exact .inr ⟨s, hname⟩
      · exact .inl ⟨name, hname, fun s hs => hstring ⟨s, hs⟩⟩
  | _ => exact .inl nofun

/-- **The nodes that are read.** -/
theorem tensorSpec_ok_iff {node : Json} : (∃ spec, tensorSpec node = .ok spec) ↔ Readable node := by
  constructor
  · rintro ⟨spec, hspec⟩
    rcases node_cases node with hobject | hnameless | ⟨members, rfl, ⟨name, hname, hstring⟩ | ⟨s, hs⟩⟩
    · rw [tensorSpec_not_object hobject] at hspec
      cases hspec
    · rw [tensorSpec_nameless hnameless] at hspec
      cases hspec
    · rw [tensorSpec_misnamed hname hstring] at hspec
      cases hspec
    · rw [tensorSpec_named hs] at hspec
      obtain ⟨datatype, hdatatype, hspec⟩ := bind_eq_ok.mp hspec
      obtain ⟨shape, hshape, -⟩ := bind_eq_ok.mp hspec
      exact ⟨members, s, rfl, hs, value_ok_iff.mp ⟨datatype, hdatatype⟩, readShape_ok_iff.mp ⟨shape, hshape⟩⟩
  · rintro ⟨members, name, rfl, hname, hdatatype, hshape⟩
    obtain ⟨datatype, hdatatype⟩ := value_ok_iff.mpr hdatatype
    obtain ⟨shape, hshape⟩ := readShape_ok_iff.mpr hshape
    refine ⟨⟨name, datatype, shape⟩, ?_⟩
    rw [tensorSpec_named hname, hdatatype, ok_bind, hshape]
    rfl

/-- **The nodes that are refused.** -/
theorem tensorSpec_throws_iff {node : Json} :
    (∃ e, tensorSpec node = .throws e) ↔ Rejected node := by
  constructor
  · rintro ⟨e, he⟩
    rcases node_cases node with hobject | hnameless | ⟨members, rfl, ⟨name, hname, hstring⟩ | ⟨s, hs⟩⟩
    · exact .inl hobject
    · rw [tensorSpec_nameless hnameless] at he
      cases he
    · exact .inr ⟨members, rfl, .inl ⟨name, hname, hstring⟩⟩
    · refine .inr ⟨members, rfl, .inr ⟨⟨s, hs⟩, ?_⟩⟩
      by_cases hdatatype : OptionalString members (str "datatype")
      · obtain ⟨datatype, hvalue⟩ := value_ok_iff.mpr hdatatype
        rw [tensorSpec_named hs, hvalue, ok_bind] at he
        rcases bind_throws_iff.mp ⟨e, he⟩ with hshape | ⟨shape, -, e', he'⟩
        · exact .inr ⟨hdatatype, readShape_throws_iff.mp hshape⟩
        · cases he'
      · exact .inl hdatatype
  · rintro (hobject | ⟨members, rfl, ⟨name, hname, hstring⟩ | ⟨⟨s, hs⟩, hdatatype | ⟨hdatatype, hshape⟩⟩⟩)
    · exact ⟨_, tensorSpec_not_object hobject⟩
    · exact ⟨_, tensorSpec_misnamed hname hstring⟩
    · refine ⟨.jsonTypeError 302, ?_⟩
      rw [tensorSpec_named hs, value_throws _ hdatatype]
      rfl
    · obtain ⟨datatype, hdatatype⟩ := value_ok_iff.mpr hdatatype
      obtain ⟨e, he⟩ := readShape_throws_iff.mpr hshape
      refine ⟨e, ?_⟩
      rw [tensorSpec_named hs, hdatatype, ok_bind, he]
      rfl

/-- The name in a node. -/
def nodeName : Json → Bytes
  | .object members =>
    match members.lookup (str "name") with
    | some (.string name) => name
    | _ => []
  | _ => []

theorem tensorSpec_name {node : Json} {spec : TensorSpec} (h : tensorSpec node = .ok spec) :
    spec.name = nodeName node ∧
      (node.subscript (str "name") >>= fun name => name.get Bytes) = .ok spec.name := by
  obtain ⟨members, name, rfl, hname, -, -⟩ := tensorSpec_ok_iff.mp ⟨spec, h⟩
  rw [tensorSpec_named hname] at h
  obtain ⟨datatype, -, h⟩ := bind_eq_ok.mp h
  obtain ⟨shape, -, h⟩ := bind_eq_ok.mp h
  cases h
  rw [subscript_object hname]
  exact ⟨by rw [nodeName, hname], rfl⟩

theorem mapM_tensorSpec_names {nodes : List Json} {specs : List TensorSpec}
    (h : nodes.mapM tensorSpec = .ok specs) : specs.map TensorSpec.name = nodes.map nodeName := by
  induction nodes generalizing specs with
  | nil => cases h; rfl
  | cons node nodes ih =>
    rw [List.mapM_cons] at h
    obtain ⟨spec, hspec, h⟩ := bind_eq_ok.mp h
    obtain ⟨rest, hrest, h⟩ := bind_eq_ok.mp h
    cases h
    rw [List.map_cons, List.map_cons, ih hrest, (tensorSpec_name hspec).1]

/-! ### The loop over the outputs -/

/-- **A loop that reaches its end** leaves the names of all outputs. -/
theorem readOutputs_ok {nodes : List Json} {specs : List TensorSpec}
    (h : nodes.mapM tensorSpec = .ok specs) (outputs : List TensorSpec) (names : List Bytes) :
    readOutputs nodes outputs names = (.ok (outputs ++ specs), names ++ specs.map TensorSpec.name) := by
  induction nodes generalizing specs outputs names with
  | nil =>
    cases h
    simp [readOutputs]
  | cons node nodes ih =>
    rw [List.mapM_cons] at h
    obtain ⟨spec, hspec, h⟩ := bind_eq_ok.mp h
    obtain ⟨rest, hrest, h⟩ := bind_eq_ok.mp h
    cases h
    rw [readOutputs, hspec, ok_andThen, (tensorSpec_name hspec).2, ok_andThen, ih hrest]
    simp

/-- **A loop that stops** at a node leaves the names of the nodes before it. -/
theorem readOutputs_stops {before : List Json} {specs : List TensorSpec}
    (h : before.mapM tensorSpec = .ok specs) {node : Json} (hnode : ∀ spec, tensorSpec node ≠ .ok spec)
    (after : List Json) (outputs : List TensorSpec) (names : List Bytes) :
    readOutputs (before ++ node :: after) outputs names =
      ((fun _ => []) <$> tensorSpec node, names ++ specs.map TensorSpec.name) := by
  induction before generalizing specs outputs names with
  | nil =>
    obtain rfl : specs = [] := by cases h; rfl
    rw [List.nil_append, readOutputs, List.map_nil, List.append_nil]
    cases htensor : tensorSpec node with
    | ok spec => exact absurd htensor (hnode spec)
    | _ => rfl
  | cons first before ih =>
    rw [List.mapM_cons] at h
    obtain ⟨spec, hspec, h⟩ := bind_eq_ok.mp h
    obtain ⟨rest, hrest, h⟩ := bind_eq_ok.mp h
    cases h
    rw [List.cons_append, readOutputs, hspec, ok_andThen, (tensorSpec_name hspec).2, ok_andThen, ih hrest]
    simp

theorem readOutputs_fst (nodes : List Json) :
    (readOutputs nodes [] []).1 = nodes.mapM tensorSpec := by
  rcases mapM_cases tensorSpec nodes with ⟨specs, hspecs, -⟩ |
    ⟨before, node, after, specs, rfl, hbefore, hnode, hstop⟩
  · rw [readOutputs_ok hspecs, hspecs, List.nil_append]
  · rw [readOutputs_stops hbefore hnode, hstop]

/-! ### Documents -/

/-- A document that is read as far as its inputs: it has both lists, and its platform is a string if it is
there. -/
def ReachesInputs (document inputs outputs : Json) : Prop :=
  ∃ members, document = .object members ∧ members.lookup (str "inputs") = some inputs ∧
    members.lookup (str "outputs") = some outputs ∧ OptionalString members (str "platform")

theorem ReachesInputs.unique {document inputs outputs inputs' outputs' : Json}
    (h : ReachesInputs document inputs outputs) (h' : ReachesInputs document inputs' outputs') :
    inputs = inputs' ∧ outputs = outputs' := by
  obtain ⟨members, rfl, hinputs, houtputs, -⟩ := h
  obtain ⟨_, hobject, hinputs', houtputs', -⟩ := h'
  cases hobject
  exact ⟨Option.some.inj (hinputs.symm.trans hinputs'), Option.some.inj (houtputs.symm.trans houtputs')⟩

section Decoding

variable {lib : JsonLib} {response : HttpResponse} {document inputs outputs : Json}

theorem metadataInputs_object {members : List (Bytes × Json)} {platform : Bytes}
    (hstatus : response.status = 200) (hparse : lib.parse response.body = .ok (.object members))
    (hinputs : members.lookup (str "inputs") = some inputs)
    (houtputs : members.lookup (str "outputs") = some outputs)
    (hplatform : (Json.object members).value (str "platform") [] = .ok platform) :
    metadataInputs lib response =
      (fun specs => (platform, specs, outputs)) <$> inputs.elements.mapM tensorSpec := by
  rw [metadataInputs, if_neg (not_not.mpr hstatus), hparse, ok_bind, contains_object hinputs,
    contains_object houtputs, hplatform, subscript_object hinputs, subscript_object houtputs]
  simp only [Bool.not_true, Bool.or_self, Bool.false_eq_true, if_false, ok_bind, map_eq_pure_bind]

theorem metadataInputs_throws (hstatus : response.status = 200)
    (hparse : lib.parse response.body = .ok document)
    (h : ¬ ∃ inputs outputs, ReachesInputs document inputs outputs) :
    ∃ e, metadataInputs lib response = .throws e := by
  rw [metadataInputs, if_neg (not_not.mpr hstatus), hparse, ok_bind]
  by_cases hlists : document.contains (str "inputs") = true ∧ document.contains (str "outputs") = true
  · rw [hlists.1, hlists.2]
    cases document with
    | object members =>
      obtain ⟨inputs, hinputs⟩ := Option.isSome_iff_exists.mp hlists.1
      obtain ⟨outputs, houtputs⟩ := Option.isSome_iff_exists.mp hlists.2
      have hplatform : ¬ OptionalString members (str "platform") := fun hplatform =>
        h ⟨inputs, outputs, members, rfl, hinputs, houtputs, hplatform⟩
      rw [value_throws _ hplatform]
      exact ⟨_, rfl⟩
    | _ => cases hlists.1
  · rw [if_pos]
    · exact ⟨_, rfl⟩
    · simpa [imp_iff_not_or] using hlists

/-- **Decoding a document that reaches its inputs** reads the inputs, then the outputs and their names. -/
theorem decodeMetadata_reaches (hstatus : response.status = 200)
    (hparse : lib.parse response.body = .ok document) (h : ReachesInputs document inputs outputs)
    (names : List Bytes) : ∃ platform, decodeMetadata lib response names =
      (inputs.elements.mapM tensorSpec).andThen (fun specs _ =>
        ((fun outputs => ⟨specs, outputs, platform⟩) <$> (readOutputs outputs.elements [] []).1,
          (readOutputs outputs.elements [] []).2)) names := by
  obtain ⟨members, rfl, hinputs, houtputs, hplatform⟩ := h
  have hvalue : ∃ s, (Json.object members).value (str "platform") [] = .ok s := value_ok_iff.mpr hplatform
  obtain ⟨platform, hplatform⟩ := hvalue
  refine ⟨platform, ?_⟩
  rw [decodeMetadata, metadataInputs_object hstatus hparse hinputs houtputs hplatform]
  cases inputs.elements.mapM tensorSpec <;> rfl

/-- Any other document is refused, and the names stay. -/
theorem decodeMetadata_throws (hstatus : response.status = 200)
    (hparse : lib.parse response.body = .ok document)
    (h : ¬ ∃ inputs outputs, ReachesInputs document inputs outputs) (names : List Bytes) :
    ∃ e, decodeMetadata lib response names = (.throws e, names) := by
  obtain ⟨e, he⟩ := metadataInputs_throws hstatus hparse h
  refine ⟨e, ?_⟩
  rw [decodeMetadata, he]
  rfl

end Decoding

end HttpClient

end KserveClient
