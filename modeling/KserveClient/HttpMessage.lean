import KserveClient.Lib.ListSearch
import KserveClient.Outcome
import Mathlib.Data.List.DropRight

/-!
# KserveClient.HttpMessage — endpoints and HTTP/1.1 responses

`parseEndpoint` reads an endpoint URL and `parseHttpResponse` a complete response.  All arithmetic on
`size_t` is modulo `2 ^ 64`, and the loop that undoes the chunked coding is run for as many rounds as
the body has positions: as its next position depends on the current one only, a loop that is still
going then never ends.
-/

namespace KserveClient

open ListSearch

/-- Parsed connection target. -/
structure Endpoint where
  host : Bytes
  port : ℤ
  pathPrefix : Bytes
  tls : Bool
deriving DecidableEq

structure HttpResponse where
  status : ℤ
  body : Bytes
  inferenceHeaderLength : ℤ := -1
deriving DecidableEq

/-- The URL without its scheme, and whether the scheme asks for TLS. -/
def stripScheme (url : Bytes) : Bytes × Bool :=
  if str "https://" <+: url then (url.drop 8, true)
  else if str "grpcs://" <+: url then (url.drop 8, true)
  else if str "http://" <+: url then (url.drop 7, false)
  else if str "grpc://" <+: url then (url.drop 7, false)
  else (url, false)

def parseEndpoint (url : Bytes) (defaultPort : ℤ) : Outcome Endpoint :=
  let (value, tls) := stripScheme url
  let (authority, pathPrefix) :=
    match find (str "/") value with
    | some slash => (value.take slash, (value.drop slash).rdropWhile (· == 47))
    | none => (value, [])
  match find (str ":") authority with
  | some colon => do
    let port ← stoi (authority.drop (colon + 1))
    pure ⟨authority.take colon, port, pathPrefix, tls⟩
  | none => pure ⟨authority, defaultPort, pathPrefix, tls⟩

/-- The terminator of the header section. -/
def crlf2 : Bytes := crlf ++ crlf

/-- The substring test that decides on the chunked coding, on the lower-cased head. -/
def looksChunked (lower : Bytes) : Bool :=
  (find (str "transfer-encoding:") lower).isSome && (find (str "chunked") lower).isSome

/-- The status number of the status line. -/
def parseStatus (raw : Bytes) : Outcome ℤ :=
  match find (str " ") raw with
  | none => throwRuntime (str "invalid HTTP response: no status line")
  | some firstSpace =>
    let rest := raw.drop (firstSpace + 1)
    match findFrom (str " ") raw (firstSpace + 1) with
    | some secondSpace => stoi (rest.take (secondSpace - firstSpace - 1))
    | none => stoi rest

/-- The value of `Inference-Header-Content-Length`, −1 when there is none. -/
def parseInferenceHeaderLength (headers : Bytes) : ℤ :=
  let marker := str "inference-header-content-length:"
  match find marker (toLower headers) with
  | none => -1
  | some markerPos =>
    match stol ((headers.drop (markerPos + marker.length)).dropWhile fun c => c == 32 || c == 9) with
    | .ok v => v
    | _ => -1

/-- The size in a chunk's size line, without its extensions. -/
def chunkSize (sizeToken : Bytes) : Outcome ℕ :=
  match find (str ";") sizeToken with
  | some semicolon => stoul16 (sizeToken.take semicolon)
  | none => stoul16 sizeToken

/-- The loop that undoes the chunked coding, from position `pos` on. -/
def dechunkFrom (body : Bytes) : ℕ → ℕ → Bytes → Outcome Bytes
  | 0, _, _ => .diverges
  | rounds + 1, pos, decoded =>
    if pos < body.length then
      match findFrom crlf body pos with
      | none => .ok decoded
      | some lineEnd =>
        match chunkSize ((body.drop pos).take (lineEnd - pos)) with
        | .ok size =>
          if size = 0 then .ok decoded
          else
            let dataStart := lineEnd + 2
            if body.length < (dataStart + size) % sizeMod then
              throwRuntime (str "invalid chunked HTTP body: truncated chunk")
            else
              dechunkFrom body rounds ((dataStart + size + 2) % sizeMod)
                (decoded ++ (body.drop dataStart).take size)
        | _ => .ok decoded
    else .ok decoded

/-- Undoes the chunked coding. -/
def dechunk (body : Bytes) : Outcome Bytes := dechunkFrom body (body.length + 1) 0 []

def parseHttpResponse (raw : Bytes) : Outcome HttpResponse := do
  let status ← parseStatus raw
  match find crlf2 raw with
  | none => throwRuntime (str "invalid HTTP response: no header terminator")
  | some headerEnd =>
    let headers := raw.take headerEnd
    let body := raw.drop (headerEnd + 4)
    let inferenceHeaderLength := parseInferenceHeaderLength headers
    if looksChunked (toLower headers) then do
      let decoded ← dechunk body
      pure ⟨status, decoded, inferenceHeaderLength⟩
    else pure ⟨status, body, inferenceHeaderLength⟩

/-- A response whose head ends: its status, its body, and the length of its JSON header. -/
theorem parseHttpResponse_eq {raw : Bytes} {headerEnd : ℕ} (hend : find crlf2 raw = some headerEnd) :
    parseHttpResponse raw = parseStatus raw >>= fun status =>
      (if looksChunked (toLower (raw.take headerEnd)) then dechunk (raw.drop (headerEnd + 4))
        else .ok (raw.drop (headerEnd + 4))) >>= fun body =>
      .ok ⟨status, body, parseInferenceHeaderLength (raw.take headerEnd)⟩ := by
  rw [parseHttpResponse, hend]
  congr 1
  funext status
  dsimp only
  split_ifs <;> rfl

end KserveClient
