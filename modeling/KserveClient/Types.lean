import KserveClient.Outcome

/-!
# KserveClient.Types — the neutral data types of the client
-/

namespace KserveClient

/-- Name, datatype tag and shape of one model input or output. -/
structure TensorSpec where
  name : Bytes
  datatype : Bytes
  shape : List Int64
deriving DecidableEq

structure ModelMetadata where
  inputs : List TensorSpec
  outputs : List TensorSpec
  platform : Bytes
deriving DecidableEq

/-- One input tensor; `data` is `none` for a null pointer. -/
structure InferInput where
  name : Bytes
  datatype : Bytes
  shape : List Int64
  data : Option Bytes
deriving DecidableEq

/-- One output tensor, as raw little-endian bytes. -/
structure InferOutput where
  name : Bytes
  datatype : Bytes
  shape : List Int64
  data : Bytes
deriving DecidableEq

/-- One entry of the index of the model repository. -/
structure RepositoryModel where
  name : Bytes
  version : Bytes
  state : Bytes
  reason : Bytes
deriving DecidableEq

end KserveClient
