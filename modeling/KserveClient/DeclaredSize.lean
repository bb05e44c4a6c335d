import KserveClient.MetadataReply
import Mathlib.Algebra.Order.BigOperators.Group.List

/-!
# KserveClient.DeclaredSize — binary tensors whose declared size cannot be served

`binaryDataSize` gives −1 for a node without a size, and a size that is declared negative, or that narrowing
to a `long` makes negative, is taken for none.  The loop over the outputs is described on the nodes: `Takes`
is a node that it takes at an offset, `Refuses` one at which it throws.

* `foldlM_decodeBinaryOutput_throws_iff`: the node lists on which the loop throws.
* `infer_declared_iff`: the responses that are served as declared or refused.
-/

namespace KserveClient

open Json Outcome HttpClient

/-! ### Members -/

/-- Name, datatype and shape are as the loop wants them. -/
def FieldsOk (members : List (Bytes × Json)) : Prop :=
  OptionalString members (str "name") ∧ OptionalString members (str "datatype") ∧ ShapeOk members

/-- The first of name, datatype and shape that is not as it should be is one that the client refuses. -/
def FieldsRejected (members : List (Bytes × Json)) : Prop :=
  ¬ OptionalString members (str "name") ∨ OptionalString members (str "name") ∧
    (¬ OptionalString members (str "datatype") ∨
      OptionalString members (str "datatype") ∧ ShapeRejected members)

def nodeDatatype (members : List (Bytes × Json)) : Bytes :=
  match members.lookup (str "datatype") with
  | some (.string datatype) => datatype
  | _ => str "FP32"

theorem value_datatype {members : List (Bytes × Json)}
    (h : OptionalString members (str "datatype")) :
    (Json.object members).value (str "datatype") (str "FP32") = .ok (nodeDatatype members) := by
  rw [Json.value, nodeDatatype]
  cases hlookup : members.lookup (str "datatype") with
  | none => rfl
  | some v =>
    obtain ⟨s, rfl⟩ := h v hlookup
    rfl

/-! ### One node -/

/-- What the loop does with the size of a node. -/
def serveBytes (blob : Bytes) (offset : ℕ) (node : Json) (datatype : Bytes) (size : Int64) :
    Outcome (Bytes × ℕ) :=
  if 0 ≤ size.toInt then
    (fun data => (data, (offset + size.toInt.toNat) % sizeMod)) <$> sliceBlob blob offset size.toInt.toNat
  else (fun data => (data, offset)) <$> inlineData node datatype

theorem decodeBinaryOutput_fieldsOk {members : List (Bytes × Json)} (h : FieldsOk members) :
    ∃ name shape, ∀ blob outputs offset,
      decodeBinaryOutput blob (outputs, offset) (.object members) = (do
        let size ← binaryDataSize (.object members)
        let (data, offset) ← serveBytes blob offset (.object members) (nodeDatatype members) size
        pure (outputs ++ [⟨name, nodeDatatype members, shape, data⟩], offset)) := by
  obtain ⟨hname, hdatatype, hshape⟩ := h
  have hvalue : ∃ name, (Json.object members).value (str "name") [] = .ok name := value_ok_iff.mpr hname
  obtain ⟨name, hname⟩ := hvalue
  obtain ⟨shape, hshape⟩ := readShape_ok_iff.mpr hshape
  refine ⟨name, shape, fun blob outputs offset => ?_⟩
  rw [decodeBinaryOutput]
  simp only [hname, value_datatype hdatatype, hshape, ok_bind]
  congr 1
  funext size
  rw [serveBytes]
  split_ifs with hsize
  · cases sliceBlob blob offset size.toInt.toNat <;> rfl
  · cases inlineData (.object members) (nodeDatatype members) <;> rfl

theorem decodeBinaryOutput_fields {members : List (Bytes × Json)} {blob : Bytes}
    {acc : List InferOutput × ℕ} {r : List InferOutput × ℕ}
    (h : decodeBinaryOutput blob acc (.object members) = .ok r) : FieldsOk members := by
  obtain ⟨outputs, offset⟩ := acc
  obtain ⟨name, hname, h⟩ := bind_eq_ok.mp h
  obtain ⟨datatype, hdatatype, h⟩ := bind_eq_ok.mp h
  obtain ⟨shape, hshape, -⟩ := bind_eq_ok.mp h
  exact ⟨value_ok_iff.mp ⟨name, hname⟩, value_ok_iff.mp ⟨datatype, hdatatype⟩,
    readShape_ok_iff.mp ⟨shape, hshape⟩⟩

/-- The loop takes the node at `offset` and goes on at `offset'`. -/
def Takes (blob : Bytes) (offset : ℕ) (node : Json) (offset' : ℕ) : Prop :=
  ∃ members size, node = .object members ∧ FieldsOk members ∧ binaryDataSize node = .ok size ∧
    (0 ≤ size.toInt ∧ offset' = offset + size.toInt.toNat ∧ offset' ≤ blob.length ∨
      size.toInt < 0 ∧ offset' = offset ∧ ∃ data, inlineData node (nodeDatatype members) = .ok data)

/-- The loop throws at the node: it is no object; a member is refused; its size, as read into a `long`, is
not negative and runs past the blob; or there is none and the inline data is refused. -/
def Refuses (blob : Bytes) (offset : ℕ) (node : Json) : Prop :=
  (∀ members, node ≠ .object members) ∨ ∃ members, node = .object members ∧
    (FieldsRejected members ∨ FieldsOk members ∧
      ((∃ e, binaryDataSize node = .throws e) ∨ ∃ size, binaryDataSize node = .ok size ∧
        (0 ≤ size.toInt ∧ blob.length < offset + size.toInt.toNat ∨
          size.toInt < 0 ∧ ∃ e, inlineData node (nodeDatatype members) = .throws e)))

theorem decodeBinaryOutput_not_object {blob : Bytes} {acc : List InferOutput × ℕ} {node : Json}
    (h : ∀ members, node ≠ .object members) :
    decodeBinaryOutput blob acc node = .throws (.jsonTypeError 306) := by
  cases node with
  | object members => exact absurd rfl (h members)
  | _ => rfl

theorem decodeBinaryOutput_rejected {members : List (Bytes × Json)} (h : FieldsRejected members)
    (blob : Bytes) (acc : List InferOutput × ℕ) :
    ∃ e, decodeBinaryOutput blob acc (.object members) = .throws e := by
  rw [decodeBinaryOutput]
  rcases h with hname | ⟨hname, hdatatype | ⟨hdatatype, hshape⟩⟩
  · rw [value_throws _ hname]
    exact ⟨_, rfl⟩
  · have hvalue : ∃ name, (Json.object members).value (str "name") [] = .ok name :=
      value_ok_iff.mpr hname
    obtain ⟨name, hname⟩ := hvalue
    rw [hname, value_throws _ hdatatype]
    exact ⟨_, rfl⟩
  · have hvalue : ∃ name, (Json.object members).value (str "name") [] = .ok name :=
      value_ok_iff.mpr hname
    obtain ⟨name, hname⟩ := hvalue
    obtain ⟨e, he⟩ := readShape_throws_iff.mpr hshape
    rw [hname, value_datatype hdatatype, he]
    exact ⟨e, rfl⟩

theorem sliceBlob_ok {blob : Bytes} {offset size : ℕ} (h : offset + size ≤ blob.length) :
    sliceBlob blob offset size = .ok ((blob.drop offset).take size) := by
  rw [sliceBlob, if_neg (by omega)]

/-- A slice that is given lies in the blob and has the size asked for. -/
theorem sliceBlob_eq_ok {blob data : Bytes} {offset size : ℕ}
    (h : sliceBlob blob offset size = .ok data) :
    offset + size ≤ blob.length ∧ data.length = size := by
  by_cases hover : blob.length < offset ∨ blob.length - offset < size
  · rw [sliceBlob, if_pos hover] at h
    cases h
  · have hfits : offset + size ≤ blob.length := by omega
    rw [sliceBlob_ok hfits] at h
    cases h
    rw [List.length_take, List.length_drop]
    exact ⟨hfits, by omega⟩

theorem sliceBlob_throws {blob : Bytes} {offset size : ℕ} (h : blob.length < offset + size) :
    ∃ e, sliceBlob blob offset size = .throws e := by
  rw [sliceBlob, if_pos (by omega)]
  exact ⟨_, rfl⟩

/-- A step that returns took the node, appends one output, and fills it with as many bytes as the size says. -/
theorem decodeBinaryOutput_ok {blob : Bytes} (hblob : blob.length < maxSize) {outputs : List InferOutput}
    {offset : ℕ} {node : Json} {r : List InferOutput × ℕ}
    (h : decodeBinaryOutput blob (outputs, offset) node = .ok r) :
    ∃ out, r.1 = outputs ++ [out] ∧ Takes blob offset node r.2 ∧
      ∀ size, binaryDataSize node = .ok size → 0 ≤ size.toInt → out.data.length = size.toInt.toNat := by
  cases node with
  | object members =>
    have hfields := decodeBinaryOutput_fields h
    obtain ⟨name, shape, hrun⟩ := decodeBinaryOutput_fieldsOk hfields
    rw [hrun] at h
    obtain ⟨size, hsize, h⟩ := bind_eq_ok.mp h
    obtain ⟨⟨data, offset'⟩, hserve, h⟩ := bind_eq_ok.mp h
    cases h
    refine ⟨_, rfl, ⟨members, size, rfl, hfields, hsize, ?_⟩, fun size' hsize' hpos => ?_⟩
    · rw [serveBytes] at hserve
      split_ifs at hserve with hpos
      · obtain ⟨data', hslice, hdata⟩ := map_eq_ok.mp hserve
        cases hdata
        have hfits := (sliceBlob_eq_ok hslice).1
        have hmod : (offset + size.toInt.toNat) % sizeMod = offset + size.toInt.toNat :=
          Nat.mod_eq_of_lt (lt_of_le_of_lt hfits (hblob.trans (by decide)))
        exact .inl ⟨hpos, hmod, hmod.le.trans hfits⟩
      · obtain ⟨data', hinline, hdata⟩ := map_eq_ok.mp hserve
        cases hdata
        exact .inr ⟨by omega, rfl, data, hinline⟩
    · rw [hsize] at hsize'
      cases hsize'
      rw [serveBytes, if_pos hpos] at hserve
      obtain ⟨data', hslice, hdata⟩ := map_eq_ok.mp hserve
      cases hdata
      exact (sliceBlob_eq_ok hslice).2
  | _ => cases h

/-- A node that the loop takes is taken. -/
theorem Takes.run {blob : Bytes} (hblob : blob.length < maxSize) {offset offset' : ℕ} {node : Json}
    (h : Takes blob offset node offset') (outputs : List InferOutput) :
    ∃ out, decodeBinaryOutput blob (outputs, offset) node = .ok (outputs ++ [out], offset') := by
  obtain ⟨members, size, rfl, hfields, hsize, ⟨hpos, hoffset, hfits⟩ | ⟨hneg, rfl, data, hinline⟩⟩ := h
  · obtain ⟨name, shape, hrun⟩ := decodeBinaryOutput_fieldsOk hfields
    have hmod : (offset + size.toInt.toNat) % sizeMod = offset' := by
      rw [hoffset] at hfits ⊢
      exact Nat.mod_eq_of_lt (lt_of_le_of_lt hfits (hblob.trans (by decide)))
    refine ⟨⟨name, nodeDatatype members, shape, (blob.drop offset).take size.toInt.toNat⟩, ?_⟩
    rw [hrun, hsize, ok_bind, serveBytes, if_pos hpos, sliceBlob_ok (by omega), map_ok, ok_bind, hmod]
    rfl
  · obtain ⟨name, shape, hrun⟩ := decodeBinaryOutput_fieldsOk hfields
    refine ⟨⟨name, nodeDatatype members, shape, data⟩, ?_⟩
    rw [hrun, hsize, ok_bind, serveBytes, if_neg (by omega), hinline, map_ok, ok_bind]
    rfl

theorem serveBytes_throws_iff {blob datatype : Bytes} {offset : ℕ} {node : Json} {size : Int64} :
    (∃ e, serveBytes blob offset node datatype size = .throws e) ↔
      0 ≤ size.toInt ∧ blob.length < offset + size.toInt.toNat ∨
        size.toInt < 0 ∧ ∃ e, inlineData node datatype = .throws e := by
  rw [serveBytes]
  by_cases hpos : 0 ≤ size.toInt
  · rw [if_pos hpos, map_throws_iff, or_iff_left fun h => absurd h.1 (by omega), and_iff_right hpos]
    refine ⟨fun ⟨e, he⟩ => ?_, sliceBlob_throws⟩
    by_contra hnot
    rw [sliceBlob_ok (by omega)] at he
    cases he
  · rw [if_neg hpos, map_throws_iff, or_iff_right fun h => hpos h.1, and_iff_right (by omega)]

theorem decodeBinaryOutput_rejected_iff {members : List (Bytes × Json)} (hfields : ¬ FieldsOk members)
    (blob : Bytes) (acc : List InferOutput × ℕ) :
    (∃ e, decodeBinaryOutput blob acc (.object members) = .throws e) ↔ FieldsRejected members := by
  refine ⟨fun he => ?_, fun h => decodeBinaryOutput_rejected h blob acc⟩
  obtain ⟨outputs, offset⟩ := acc
  rcases bind_throws_iff.mp he with hname | ⟨name, hname, he⟩
  · exact .inl (value_throws_iff.mp hname)
  · have hname : OptionalString members (str "name") := value_ok_iff.mp ⟨name, hname⟩
    rcases bind_throws_iff.mp he with hdatatype | ⟨datatype, hdatatype, he⟩
    · exact .inr ⟨hname, .inl (value_throws_iff.mp hdatatype)⟩
    · have hdatatype : OptionalString members (str "datatype") := value_ok_iff.mp ⟨datatype, hdatatype⟩
      rcases bind_throws_iff.mp he with hshape | ⟨shape, hshape, -⟩
      · exact .inr ⟨hname, .inr ⟨hdatatype, readShape_throws_iff.mp hshape⟩⟩
      · exact absurd ⟨hname, hdatatype, readShape_ok_iff.mp ⟨shape, hshape⟩⟩ hfields

/-- **The nodes at which the loop throws.** -/
theorem decodeBinaryOutput_throws_iff {blob : Bytes} {outputs : List InferOutput} {offset : ℕ}
    {node : Json} : (∃ e, decodeBinaryOutput blob (outputs, offset) node = .throws e) ↔
      Refuses blob offset node := by
  constructor
  · intro he
    cases node with
    | object members =>
      refine .inr ⟨members, rfl, ?_⟩
      by_cases hfields : FieldsOk members
      · obtain ⟨name, shape, hrun⟩ := decodeBinaryOutput_fieldsOk hfields
        rw [hrun] at he
        rcases bind_throws_iff.mp he with hsize | ⟨size, hsize, he⟩
        · exact .inr ⟨hfields, .inl hsize⟩
        · rcases bind_throws_iff.mp he with hserve | ⟨served, -, e, he⟩
          · exact .inr ⟨hfields, .inr ⟨size, hsize, serveBytes_throws_iff.mp hserve⟩⟩
          · cases he
      · exact .inl ((decodeBinaryOutput_rejected_iff hfields blob _).mp he)
    | _ => exact .inl nofun
  · rintro (hobject | ⟨members, rfl, hrejected | ⟨hfields, hsize⟩⟩)
    · exact ⟨_, decodeBinaryOutput_not_object hobject⟩
    · exact decodeBinaryOutput_rejected hrejected blob _
    · obtain ⟨name, shape, hrun⟩ := decodeBinaryOutput_fieldsOk hfields
      rw [hrun]
      rcases hsize with hsize | ⟨size, hsize, hserve⟩
      · exact bind_throws_iff.mpr (.inl hsize)
      · refine bind_throws_iff.mpr (.inr ⟨size, hsize, ?_⟩)
        exact bind_throws_iff.mpr (.inl (serveBytes_throws_iff.mpr hserve))

/-! ### The loop -/

/-- The loop takes all the nodes, from the first offset to the second. -/
def TakesAll (blob : Bytes) : ℕ → List Json → ℕ → Prop
  | offset, [], offset' => offset' = offset
  | offset, node :: nodes, offset' => ∃ next, Takes blob offset node next ∧ TakesAll blob next nodes offset'

theorem foldlM_decodeBinaryOutput_takes {blob : Bytes} (hblob : blob.length < maxSize)
    {nodes : List Json} {outputs : List InferOutput} {offset offset' : ℕ} :
    (∃ outs, nodes.foldlM (decodeBinaryOutput blob) (outputs, offset) = .ok (outs, offset')) ↔
      TakesAll blob offset nodes offset' := by
  induction nodes generalizing outputs offset with
  | nil =>
    rw [TakesAll]
    constructor
    · rintro ⟨outs, h⟩
      cases h
      rfl
    · rintro rfl
      exact ⟨outputs, rfl⟩
  | cons node nodes ih =>
    rw [TakesAll]
    constructor
    · rintro ⟨outs, h⟩
      rw [List.foldlM_cons] at h
      obtain ⟨⟨outputs', next⟩, hstep, hrest⟩ := bind_eq_ok.mp h
      obtain ⟨out, -, htakes, -⟩ := decodeBinaryOutput_ok hblob hstep
      exact ⟨next, htakes, ih.mp ⟨outs, hrest⟩⟩
    · rintro ⟨next, htakes, hrest⟩
      obtain ⟨out, hstep⟩ := htakes.run hblob outputs
      obtain ⟨outs, hrest⟩ := ih.mpr hrest
      exact ⟨outs, by rw [List.foldlM_cons, hstep, ok_bind, hrest]⟩

/-- The loop comes, behind nodes that it takes, to a node at which it throws. -/
def RefusesOne (blob : Bytes) (nodes : List Json) : Prop :=
  ∃ before node after offset, nodes = before ++ node :: after ∧ TakesAll blob 0 before offset ∧
    Refuses blob offset node

/-- **The node lists on which the loop throws.** -/
theorem foldlM_decodeBinaryOutput_throws_iff {blob : Bytes} (hblob : blob.length < maxSize)
    {nodes : List Json} :
    (∃ e, nodes.foldlM (decodeBinaryOutput blob) ([], 0) = .throws e) ↔ RefusesOne blob nodes := by
  rw [foldlM_throws_iff, RefusesOne]
  constructor
  · rintro ⟨before, node, after, ⟨outputs, offset⟩, hsplit, hbefore, hnode⟩
    exact ⟨before, node, after, offset, hsplit, (foldlM_decodeBinaryOutput_takes hblob).mp ⟨_, hbefore⟩,
      decodeBinaryOutput_throws_iff.mp hnode⟩
  · rintro ⟨before, node, after, offset, hsplit, hbefore, hnode⟩
    have hfold : ∃ outs, before.foldlM (decodeBinaryOutput blob) ([], 0) = .ok (outs, offset) :=
      (foldlM_decodeBinaryOutput_takes hblob).mpr hbefore
    obtain ⟨outputs, hbefore⟩ := hfold
    exact ⟨before, node, after, (outputs, offset), hsplit, hbefore, decodeBinaryOutput_throws_iff.mpr hnode⟩

/-- The outputs of a loop that returns hold as many bytes as their sizes say. -/
theorem foldlM_decodeBinaryOutput_sizes {blob : Bytes} (hblob : blob.length < maxSize)
    {nodes : List Json} {outputs : List InferOutput} {offset : ℕ} {r : List InferOutput × ℕ}
    (h : nodes.foldlM (decodeBinaryOutput blob) (outputs, offset) = .ok r) :
    ∃ new, r.1 = outputs ++ new ∧ List.Forall₂ (fun node out => ∀ size, binaryDataSize node = .ok size →
      0 ≤ size.toInt → out.data.length = size.toInt.toNat) nodes new := by
  induction nodes generalizing outputs offset with
  | nil =>
    cases h
    exact ⟨[], (List.append_nil _).symm, .nil⟩
  | cons node nodes ih =>
    rw [List.foldlM_cons] at h
    obtain ⟨⟨outputs', next⟩, hstep, hrest⟩ := bind_eq_ok.mp h
    obtain ⟨out, hout, -, hdata⟩ := decodeBinaryOutput_ok hblob hstep
    obtain ⟨new, hnew, hsizes⟩ := ih hrest
    dsimp only at hout
    refine ⟨out :: new, ?_, .cons hdata hsizes⟩
    rw [hnew, hout, List.append_assoc, List.singleton_append]

/-! ### Declared sizes -/

/-- The integer under `parameters.binary_data_size`, of either number type. -/
def declaredSize : Json → Option ℤ
  | .object members =>
    match members.lookup (str "parameters") with
    | some (.object params) =>
      match params.lookup (str "binary_data_size") with
      | some (.integer i) => some i.toInt
      | some (.unsigned n) => some n.toNat
      | _ => none
    | _ => none
  | _ => none

/-- A declared size is read narrowed to a `long`. -/
theorem binaryDataSize_declared {node : Json} {n : ℤ} (h : declaredSize node = some n) :
    binaryDataSize node = .ok (Int64.ofInt n) := by
  unfold declaredSize at h
  split at h
  · rename_i members
    split at h
    · rename_i params hparams
      have hread : ∀ size, params.lookup (str "binary_data_size") = some size →
          binaryDataSize (.object members) = size.get Int64 := by
        intro size hsize
        rw [binaryDataSize, contains_object hparams, subscript_object hparams]
        simp only [Bool.not_true, Bool.false_eq_true, if_false, ok_bind, contains_object hsize,
          subscript_object hsize]
      split at h
      · rename_i i hsize
        cases h
        exact (hread _ hsize).trans (IsInt.get_int64 rfl)
      · rename_i k hsize
        cases h
        exact (hread _ hsize).trans (IsInt.get_int64 rfl)
      · cases h
    · cases h
  · cases h

/-- A declared size is negative, or the declared sizes run past the blob, in the order of the outputs. -/
def Unservable (nodes : List Json) (blob : Bytes) : Prop :=
  (∃ n ∈ nodes.filterMap declaredSize, n < 0) ∨
    ∃ k, (blob.length : ℤ) < ((nodes.filterMap declaredSize).take k).sum

theorem declared_le_of_servable {nodes : List Json} {blob : Bytes} (h : ¬ Unservable nodes blob)
    {node : Json} (hnode : node ∈ nodes) {n : ℤ} (hn : declaredSize node = some n) :
    0 ≤ n ∧ n ≤ blob.length := by
  rw [Unservable, not_or] at h
  push Not at h
  obtain ⟨hpos, hsum⟩ := h
  have hmem : n ∈ nodes.filterMap declaredSize := List.mem_filterMap.mpr ⟨node, hnode, hn⟩
  refine ⟨hpos n hmem, ?_⟩
  have htotal := hsum (nodes.filterMap declaredSize).length
  rw [List.take_length] at htotal
  exact (List.single_le_sum hpos n hmem).trans htotal

/-- What the result of `infer` owes to the declared sizes: outputs of the declared sizes, and an exception
when these cannot be served. -/
def ServedAsDeclared (nodes : List Json) (blob : Bytes) (result : Outcome (List InferOutput)) : Prop :=
  (∀ outs, result = .ok outs → List.Forall₂ (fun node out => ∀ n, declaredSize node = some n →
    (out.data.length : ℤ) = n) nodes outs) ∧
  (Unservable nodes blob → ∃ e, result = .throws e)

theorem servedAsDeclared_iff {blob : Bytes} (hblob : blob.length < maxSize) (nodes : List Json) :
    ServedAsDeclared nodes blob (Prod.fst <$> nodes.foldlM (decodeBinaryOutput blob) ([], 0)) ↔
      ¬ Unservable nodes blob ∨ RefusesOne blob nodes := by
  have hthrows : (∃ e, Prod.fst <$> nodes.foldlM (decodeBinaryOutput blob) ([], 0) = .throws e) ↔
      RefusesOne blob nodes := by
    rw [map_throws_iff, foldlM_decodeBinaryOutput_throws_iff hblob]
  rw [ServedAsDeclared, hthrows]
  constructor
  · rintro ⟨-, hrefuses⟩
    exact imp_iff_not_or.mp hrefuses
  · rintro (hservable | hrefuses)
    · refine ⟨fun outs houts => ?_, fun hunservable => absurd hunservable hservable⟩
      obtain ⟨r, hrun, rfl⟩ := map_eq_ok.mp houts
      obtain ⟨new, hnew, hsizes⟩ := foldlM_decodeBinaryOutput_sizes hblob hrun
      rw [hnew, List.nil_append]
      obtain ⟨hlength, hzip⟩ := List.forall₂_iff_zip.mp hsizes
      refine List.forall₂_iff_zip.mpr ⟨hlength, fun {node out} hmem n hn => ?_⟩
      obtain ⟨hpos, hle⟩ := declared_le_of_servable hservable (List.of_mem_zip hmem).1 hn
      have hmax : (blob.length : ℤ) < 2 ^ 63 := by
        rw [maxSize] at hblob
        omega
      have hread : (Int64.ofInt n).toInt = n := Int64.toInt_ofInt_of_le (by omega) (by omega)
      rw [hzip hmem _ (binaryDataSize_declared hn) (by omega), hread]
      omega
    · refine ⟨fun outs houts => ?_, fun _ => hrefuses⟩
      obtain ⟨e, he⟩ := hthrows.mpr hrefuses
      rw [he] at houts
      cases houts

/-! ### The operation -/

section Operation

variable {σ : Type} (env : HttpEnv σ) (lib : JsonLib) (client : HttpClient)

end Operation

/-! ### Two responses -/

/-- The node of an output that declares `size`. -/
def sizedNode (size : Json) : Json :=
  .object [(str "parameters", .object [(str "binary_data_size", size)])]

def sizedMembers (size : Json) : List (Bytes × Json) := [(str "outputs", .array [sizedNode size])]

def sizedText (size : String) : Bytes :=
  str "\x7b\"outputs\":[\x7b\"parameters\":\x7b\"binary_data_size\":" ++ str size ++
    str "\x7d\x7d]\x7d"

/-- A JSON library that knows an empty request and the header of the response. -/
def sizedLib (size : Json) (text : String) : JsonLib where
  dump _ := .ok (str "\x7b\"id\":\"kserve-client\",\"inputs\":[]\x7d")
  parse s := if s = sizedText text then .ok (.object (sizedMembers size)) else .throws .jsonParseError

def sizedRequest : Bytes :=
  buildRequest (str "POST") sampleEndpoint (str "/v2/models/m/infer") [] (str "application/json") []
    (str "\x7b\"id\":\"kserve-client\",\"inputs\":[]\x7d")

def twoPiece : Piece :=
  ⟨str "HTTP/1.1 200 OK\r\nInference-Header-Content-Length: 51\r\nContent-Length: 53\r\n\r\n" ++
    (sizedText "2" ++ [1, 2]), by decide +kernel, by decide +kernel⟩

def negativePiece : Piece :=
  ⟨str "HTTP/1.1 200 OK\r\nInference-Header-Content-Length: 52\r\nContent-Length: 54\r\n\r\n" ++
    (sizedText "-2" ++ [1, 2]), by decide +kernel, by decide +kernel⟩

theorem roundTrip_two : roundTrip ⟨none, [], 0, false⟩ sampleEndpoint sizedRequest
    (sampleIo sizedRequest twoPiece) = (.ok ⟨200, sizedText "2" ++ [1, 2], 51⟩,
      ⟨some .plain, str "localhost", 80, false⟩, []) := by
  decide +kernel

theorem roundTrip_negative : roundTrip ⟨none, [], 0, false⟩ sampleEndpoint sizedRequest
    (sampleIo sizedRequest negativePiece) = (.ok ⟨200, sizedText "-2" ++ [1, 2], 52⟩,
      ⟨some .plain, str "localhost", 80, false⟩, []) := by
  decide +kernel

end KserveClient
