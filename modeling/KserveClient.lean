import KserveClient.Backoff
import KserveClient.BinaryInference
import KserveClient.BinaryTensor
import KserveClient.ChunkLoop
import KserveClient.Chunked
import KserveClient.ChunkedBody
import KserveClient.ClientProcess
import KserveClient.ClientSession
import KserveClient.ContentLength
import KserveClient.Credentials
import KserveClient.DeclaredSize
import KserveClient.Descriptors
import KserveClient.Effects
import KserveClient.EndpointText
import KserveClient.FieldLookup
import KserveClient.Framing
import KserveClient.GrpcClient
import KserveClient.GrpcContents
import KserveClient.GrpcOperations
import KserveClient.Half
import KserveClient.HalfNarrowing
import KserveClient.HttpClient
import KserveClient.HttpHead
import KserveClient.HttpMessage
import KserveClient.HttpOperations
import KserveClient.InferenceService
import KserveClient.IntegerRange
import KserveClient.Json
import KserveClient.JsonSafety
import KserveClient.KeepAlive
import KserveClient.Lib.BinaryFloat
import KserveClient.Lib.Delivery
import KserveClient.Lib.FloatRat
import KserveClient.Lib.Footprint
import KserveClient.Lib.HttpSyntax
import KserveClient.Lib.ListSearch
import KserveClient.Lib.LittleEndian
import KserveClient.Lib.Loop
import KserveClient.Lib.MachineInt
import KserveClient.Lib.Numeral
import KserveClient.Lib.RealText
import KserveClient.Lib.Run
import KserveClient.MetadataReply
import KserveClient.Observations
import KserveClient.Outcome
import KserveClient.OutputNames
import KserveClient.Persistence
import KserveClient.RepositoryCalls
import KserveClient.RequestModes
import KserveClient.RequestText
import KserveClient.Retry
import KserveClient.RetryEnv
import KserveClient.Scalar
import KserveClient.SendBytes
import KserveClient.Sockets
import KserveClient.StaleConnection
import KserveClient.StatusLine
import KserveClient.Tensor
import KserveClient.Transport
import KserveClient.Types
import KserveClient.Versions
import KserveClient.Waiting
