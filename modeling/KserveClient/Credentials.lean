import KserveClient.GrpcClient
import KserveClient.HttpClient
import KserveClient.RequestText
import KserveClient.RetryEnv

/-!
# KserveClient.Credentials — clients made from the environment

The constructors of both clients read their token and their retry policy from the environment and from the
files that it names; the gRPC client also sets up its channel.

* `readSecretFromEnvOrFile_ok_iff`: where a secret comes from.
* `makeChannelCredentials_ok_iff`: what a channel is secured with.
* `HttpClient.create_iff`, `GrpcClient.create_iff`: when the constructors return, and with what.
-/

namespace KserveClient

open Outcome

/-- The variables of the process, and the contents of the files that can be opened. -/
structure Environment where
  getenv : Bytes → Option Bytes
  file : Bytes → Option Bytes

/-! ### Secrets and files -/

section Files

variable (env : Environment)

def readFileToString (path : Bytes) : Outcome Bytes :=
  match env.file path with
  | none => throwRuntime (str "failed to open file: " ++ path)
  | some contents => pure contents

def readSecretFromEnvOrFile (envVar fileEnvVar : Bytes) : Outcome Bytes := do
  let envValue := env.getenv envVar
  let fileContents ← if envValue = none ∨ envValue = some [] then
      match env.getenv fileEnvVar with
      | some (c :: path) => some <$> readFileToString env (c :: path)
      | _ => pure none
    else pure none
  pure (resolveSecret envValue fileContents)

def readFileFromEnvPath (envVar : Bytes) : Outcome Bytes :=
  match env.getenv envVar with
  | some (c :: path) => readFileToString env (c :: path)
  | _ => pure []

def envToken : Outcome Bytes :=
  readSecretFromEnvOrFile env (str "KSERVE_BEARER_TOKEN") (str "KSERVE_BEARER_TOKEN_FILE")

end Files

def requireClientCertPair (clientCert clientKey : Bytes) : Outcome Bool :=
  let hasCert : Bool := clientCert ≠ []
  let hasKey : Bool := clientKey ≠ []
  if hasCert ≠ hasKey then
    throwRuntime (str "KServe mTLS requires both KSERVE_CLIENT_CERT and KSERVE_CLIENT_KEY " ++
      str "(only one was provided)")
  else pure (hasCert && hasKey)

/-! ### The constructors -/

/-- What a channel is secured with; empty root certificates stand for those of the system. -/
inductive ChannelCredentials where
  | insecure
  | ssl (pemRootCerts pemCertChain pemPrivateKey : Bytes)
deriving DecidableEq

structure Channel where
  target : Bytes
  credentials : ChannelCredentials
deriving DecidableEq

def makeChannelCredentials (env : Environment) (tls : Bool) : Outcome ChannelCredentials :=
  if !tls then pure .insecure
  else do
    let pemRootCerts ← readFileFromEnvPath env (str "KSERVE_CA_CERT")
    let pemCertChain ← readFileFromEnvPath env (str "KSERVE_CLIENT_CERT")
    let pemPrivateKey ← readFileFromEnvPath env (str "KSERVE_CLIENT_KEY")
    let _ ← requireClientCertPair pemCertChain pemPrivateKey
    pure (.ssl pemRootCerts pemCertChain pemPrivateKey)

/-- The constructor of `HttpClient`; no result when the policy overflows. -/
def HttpClient.create (env : Environment) (endpoint modelName modelVersion : Bytes) :
    Option (Outcome HttpClient) :=
  match envToken env with
  | .ok authToken => (retryPolicyFromEnv env.getenv).map fun retryPolicy =>
      .ok ⟨endpoint, modelName, modelVersion, authToken, retryPolicy, []⟩
  | .throws e => some (.throws e)
  | .undefined why => some (.undefined why)
  | .diverges => some .diverges
  | .blocked => some .blocked

/-- The constructor of `GrpcClient`, with the channel of its stub. -/
def GrpcClient.create (env : Environment) (endpoint modelName modelVersion : Bytes) (timeoutMs : ℤ) :
    Option (Outcome (GrpcClient × Channel)) :=
  match envToken env with
  | .ok authToken => (retryPolicyFromEnv env.getenv).map fun retryPolicy => do
      let ep ← parseEndpoint endpoint 8001
      let target := ep.host ++ str ":" ++ toText ep.port
      let credentials ← makeChannelCredentials env ep.tls
      pure (⟨modelName, modelVersion, timeoutMs, authToken, retryPolicy⟩, ⟨target, credentials⟩)
  | .throws e => some (.throws e)
  | .undefined why => some (.undefined why)
  | .diverges => some .diverges
  | .blocked => some .blocked

/-! ### Where secrets come from -/

/-- A variable that is unset or empty. -/
def Unset (env : Environment) (name : Bytes) : Prop := env.getenv name = none ∨ env.getenv name = some []

/-- The path in a variable that is not empty. -/
def Names (env : Environment) (name path : Bytes) : Prop := path ≠ [] ∧ env.getenv name = some path

theorem unset_or_names (env : Environment) (name : Bytes) : Unset env name ∨ ∃ path, Names env name path := by
  rcases h : env.getenv name with - | path
  · exact .inl (.inl h)
  · by_cases hpath : path = []
    · exact .inl (.inr (by rw [h, hpath]))
    · exact .inr ⟨path, hpath, h⟩

/-- **The secret of a pair of variables**: the value as it is, or else the contents of the file without the
blanks at its end, or else none. -/
inductive SecretOf (env : Environment) (envVar fileEnvVar : Bytes) : Bytes → Prop
  | value {s : Bytes} (h : Names env envVar s) : SecretOf env envVar fileEnvVar s
  | file {path contents : Bytes} (h : Unset env envVar) (hpath : Names env fileEnvVar path)
      (hfile : env.file path = some contents) : SecretOf env envVar fileEnvVar (trimTrailingWhitespace contents)
  | absent (h : Unset env envVar) (hfile : Unset env fileEnvVar) : SecretOf env envVar fileEnvVar []

section Reading

variable {env : Environment} {envVar fileEnvVar : Bytes}

theorem readFileFromEnvPath_unset (h : Unset env envVar) : readFileFromEnvPath env envVar = .ok [] := by
  unfold readFileFromEnvPath
  rcases h with h | h <;> rw [h] <;> rfl

theorem readFileFromEnvPath_names {path : Bytes} (h : Names env envVar path) :
    readFileFromEnvPath env envVar = readFileToString env path := by
  obtain ⟨hne, h⟩ := h
  obtain ⟨c, path, rfl⟩ := List.exists_cons_of_ne_nil hne
  rw [readFileFromEnvPath, h]

theorem readFileToString_ok {path contents : Bytes} :
    readFileToString env path = .ok contents ↔ env.file path = some contents := by
  rw [readFileToString]
  cases env.file path with
  | none => exact iff_of_false (fun h => by cases h) (fun h => by cases h)
  | some contents' => exact ⟨fun h => congrArg some (Outcome.ok.inj h), fun h => congrArg Outcome.ok (Option.some.inj h)⟩

/-- The contents of a file do not matter when the variable has a value. -/
theorem readSecretFromEnvOrFile_value {s : Bytes} (h : Names env envVar s) :
    readSecretFromEnvOrFile env envVar fileEnvVar = .ok s := by
  obtain ⟨hne, h⟩ := h
  obtain ⟨c, s, rfl⟩ := List.exists_cons_of_ne_nil hne
  rw [readSecretFromEnvOrFile, h]
  rfl

theorem readSecretFromEnvOrFile_unset (h : Unset env envVar) :
    readSecretFromEnvOrFile env envVar fileEnvVar =
      trimTrailingWhitespace <$> readFileFromEnvPath env fileEnvVar := by
  have hresolve : ∀ contents, resolveSecret (env.getenv envVar) contents =
      (contents.map trimTrailingWhitespace).getD [] := by
    intro contents
    rcases h with h | h <;> rw [h] <;> cases contents <;> rfl
  rw [readSecretFromEnvOrFile]
  dsimp only
  rw [if_pos (show env.getenv envVar = none ∨ env.getenv envVar = some [] from h), readFileFromEnvPath]
  rcases hfile : env.getenv fileEnvVar with - | (- | ⟨c, path⟩)
  · exact congrArg Outcome.ok (hresolve none)
  · exact congrArg Outcome.ok (hresolve none)
  · dsimp only
    cases readFileToString env (c :: path) with
    | ok contents => exact congrArg Outcome.ok (hresolve (some contents))
    | _ => rfl

/-- **Where a secret comes from.** -/
theorem readSecretFromEnvOrFile_ok_iff {s : Bytes} :
    readSecretFromEnvOrFile env envVar fileEnvVar = .ok s ↔ SecretOf env envVar fileEnvVar s := by
  constructor
  · intro hs
    rcases unset_or_names env envVar with hunset | ⟨value, hnames⟩
    · rw [readSecretFromEnvOrFile_unset hunset] at hs
      rcases unset_or_names env fileEnvVar with hfile | ⟨path, hpath⟩
      · rw [readFileFromEnvPath_unset hfile] at hs
        cases hs
        exact .absent hunset hfile
      · rw [readFileFromEnvPath_names hpath] at hs
        obtain ⟨contents, hread, rfl⟩ := map_eq_ok.mp hs
        exact .file hunset hpath (readFileToString_ok.mp hread)
    · rw [readSecretFromEnvOrFile_value hnames] at hs
      cases hs
      exact .value hnames
  · intro h
    cases h with
    | value hnames => exact readSecretFromEnvOrFile_value hnames
    | file hunset hpath hfile =>
      rw [readSecretFromEnvOrFile_unset hunset, readFileFromEnvPath_names hpath,
        readFileToString_ok.mpr hfile]
      rfl
    | absent hunset hfile =>
      rw [readSecretFromEnvOrFile_unset hunset, readFileFromEnvPath_unset hfile]
      rfl

/-- The contents of the file that a variable names, or none. -/
inductive FileOf (env : Environment) (envVar : Bytes) : Bytes → Prop
  | file {path contents : Bytes} (hpath : Names env envVar path) (hfile : env.file path = some contents) :
      FileOf env envVar contents
  | absent (h : Unset env envVar) : FileOf env envVar []

theorem readFileFromEnvPath_ok_iff {s : Bytes} :
    readFileFromEnvPath env envVar = .ok s ↔ FileOf env envVar s := by
  constructor
  · intro hs
    rcases unset_or_names env envVar with hunset | ⟨path, hpath⟩
    · rw [readFileFromEnvPath_unset hunset] at hs
      cases hs
      exact .absent hunset
    · rw [readFileFromEnvPath_names hpath] at hs
      exact .file hpath (readFileToString_ok.mp hs)
  · intro h
    cases h with
    | file hpath hfile =>
      rw [readFileFromEnvPath_names hpath]
      exact readFileToString_ok.mpr hfile
    | absent hunset => exact readFileFromEnvPath_unset hunset

end Reading

/-! ### What the constructors make -/

/-- The credentials of a channel: none for a plain endpoint, and for TLS the files that are named, with a
client certificate and its key or with neither. -/
inductive CredentialsOf (env : Environment) : Bool → ChannelCredentials → Prop
  | insecure : CredentialsOf env false .insecure
  | ssl {pemRootCerts pemCertChain pemPrivateKey : Bytes}
      (root : FileOf env (str "KSERVE_CA_CERT") pemRootCerts)
      (cert : FileOf env (str "KSERVE_CLIENT_CERT") pemCertChain)
      (key : FileOf env (str "KSERVE_CLIENT_KEY") pemPrivateKey)
      (pair : pemCertChain = [] ↔ pemPrivateKey = []) :
      CredentialsOf env true (.ssl pemRootCerts pemCertChain pemPrivateKey)

theorem requireClientCertPair_ok_iff {clientCert clientKey : Bytes} :
    (∃ both, requireClientCertPair clientCert clientKey = .ok both) ↔ (clientCert = [] ↔ clientKey = []) := by
  cases clientCert <;> cases clientKey <;> simp [requireClientCertPair, throwRuntime]

section Constructors

variable {env : Environment} {endpoint modelName modelVersion : Bytes} {timeoutMs : ℤ}

/-- **What a channel is secured with.** -/
theorem makeChannelCredentials_ok_iff {tls : Bool} {credentials : ChannelCredentials} :
    makeChannelCredentials env tls = .ok credentials ↔ CredentialsOf env tls credentials := by
  cases tls with
  | false =>
    constructor
    · intro h
      cases h
      exact .insecure
    · intro h
      cases h
      rfl
  | true =>
    constructor
    · intro h
      obtain ⟨root, hroot, h⟩ := bind_eq_ok.mp h
      obtain ⟨cert, hcert, h⟩ := bind_eq_ok.mp h
      obtain ⟨key, hkey, h⟩ := bind_eq_ok.mp h
      obtain ⟨both, hboth, h⟩ := bind_eq_ok.mp h
      cases h
      exact .ssl (readFileFromEnvPath_ok_iff.mp hroot) (readFileFromEnvPath_ok_iff.mp hcert)
        (readFileFromEnvPath_ok_iff.mp hkey) (requireClientCertPair_ok_iff.mp ⟨both, hboth⟩)
    · intro h
      cases h with
      | ssl root cert key pair =>
        obtain ⟨both, hboth⟩ := requireClientCertPair_ok_iff.mpr pair
        rw [makeChannelCredentials, if_neg (by decide), readFileFromEnvPath_ok_iff.mpr root, ok_bind,
          readFileFromEnvPath_ok_iff.mpr cert, ok_bind, readFileFromEnvPath_ok_iff.mpr key, ok_bind, hboth]
        rfl

/-- The token of the environment. -/
abbrev TokenOf (env : Environment) : Bytes → Prop :=
  SecretOf env (str "KSERVE_BEARER_TOKEN") (str "KSERVE_BEARER_TOKEN_FILE")

/-- **What the constructor of the HTTP client makes.** -/
theorem HttpClient.create_iff {client : HttpClient} :
    HttpClient.create env endpoint modelName modelVersion = some (.ok client) ↔
      ∃ authToken retryPolicy, TokenOf env authToken ∧ retryPolicyFromEnv env.getenv = some retryPolicy ∧
        client = ⟨endpoint, modelName, modelVersion, authToken, retryPolicy, []⟩ := by
  constructor
  · intro h
    unfold HttpClient.create at h
    cases htoken : envToken env with
    | ok authToken =>
      rw [htoken] at h
      obtain ⟨retryPolicy, hpolicy, hclient⟩ := Option.map_eq_some_iff.mp h
      exact ⟨authToken, retryPolicy, readSecretFromEnvOrFile_ok_iff.mp htoken, hpolicy,
        (Outcome.ok.inj hclient).symm⟩
    | _ => rw [htoken] at h; cases h
  · rintro ⟨authToken, retryPolicy, htoken, hpolicy, rfl⟩
    have hread : envToken env = .ok authToken := readSecretFromEnvOrFile_ok_iff.mpr htoken
    rw [HttpClient.create, hread, hpolicy]
    rfl

/-- **What the constructor of the gRPC client makes.** -/
theorem GrpcClient.create_iff {client : GrpcClient} {channel : Channel} :
    GrpcClient.create env endpoint modelName modelVersion timeoutMs = some (.ok (client, channel)) ↔
      ∃ authToken retryPolicy ep credentials, TokenOf env authToken ∧
        retryPolicyFromEnv env.getenv = some retryPolicy ∧ parseEndpoint endpoint 8001 = .ok ep ∧
        CredentialsOf env ep.tls credentials ∧
        client = ⟨modelName, modelVersion, timeoutMs, authToken, retryPolicy⟩ ∧
        channel = ⟨ep.host ++ str ":" ++ toText ep.port, credentials⟩ := by
  constructor
  · intro h
    unfold GrpcClient.create at h
    cases htoken : envToken env with
    | ok authToken =>
      rw [htoken] at h
      obtain ⟨retryPolicy, hpolicy, hclient⟩ := Option.map_eq_some_iff.mp h
      obtain ⟨ep, hep, hclient⟩ := bind_eq_ok.mp hclient
      obtain ⟨credentials, hcredentials, hclient⟩ := bind_eq_ok.mp hclient
      cases hclient
      exact ⟨authToken, retryPolicy, ep, credentials, readSecretFromEnvOrFile_ok_iff.mp htoken, hpolicy, hep,
        makeChannelCredentials_ok_iff.mp hcredentials, rfl, rfl⟩
    | _ => rw [htoken] at h; cases h
  · rintro ⟨authToken, retryPolicy, ep, credentials, htoken, hpolicy, hep, hcredentials, rfl, rfl⟩
    have hread : envToken env = .ok authToken := readSecretFromEnvOrFile_ok_iff.mpr htoken
    rw [GrpcClient.create, hread, hpolicy]
    simp only [Option.map_some, hep, ok_bind, makeChannelCredentials_ok_iff.mpr hcredentials]
    rfl

end Constructors

end KserveClient
