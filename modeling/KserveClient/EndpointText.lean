import KserveClient.HttpMessage

/-!
# KserveClient.EndpointText — the endpoint URL and what the parser keeps of it

* `authority` is the text between the scheme and the first slash.  `parseEndpoint_plain` and
  `parseEndpoint_port` are the two ways the parser goes on from there.
* **The well-formed URLs** (`EndpointUrl`): `parseEndpoint_render` reads every part of one back.
* **All URLs**: `parseEndpoint_keeps_iff` says for which of them nothing of the authority is dropped or
  read as something else.
-/

namespace KserveClient

open ListSearch

/-! ### The parser in terms of the authority -/

section Parser

/-- The text between the scheme, if there is one, and the first slash. -/
def authority (url : Bytes) : Bytes := (stripScheme url).1.takeWhile (· != 47)

/-- The text from the first slash on, without the slashes at its end. -/
def trimmedPath (url : Bytes) : Bytes :=
  ((stripScheme url).1.dropWhile (· != 47)).rdropWhile (· == 47)

variable {url host : Bytes} {defaultPort : ℤ}

/-- The split at the first slash, if there is one. -/
theorem split_slash (value : Bytes) :
    (∃ slash, find (str "/") value = some slash ∧ value.take slash = value.takeWhile (· != 47) ∧
      value.drop slash = value.dropWhile (· != 47)) ∨
    (find (str "/") value = none ∧ value.takeWhile (· != 47) = value ∧
      value.dropWhile (· != 47) = []) := by
  by_cases h : (47 : UInt8) ∈ value
  · obtain ⟨l, t, rfl, hl⟩ := List.eq_append_cons_of_mem h
    refine .inl ⟨l.length, find_letter hl, ?_, ?_⟩
    · rw [takeWhile_letter hl t, List.take_left]
    · rw [dropWhile_letter hl t, List.drop_left]
  · exact .inr ⟨find_letter_eq_none h, takeWhile_no_letter h, dropWhile_no_letter h⟩

/-- The parser behind the split at the first slash. -/
theorem parseEndpoint_eq (url : Bytes) (defaultPort : ℤ) :
    parseEndpoint url defaultPort =
      match find (str ":") (authority url) with
      | some colon =>
        (fun port => ⟨(authority url).take colon, port, trimmedPath url, (stripScheme url).2⟩) <$>
          stoi ((authority url).drop (colon + 1))
      | none => .ok ⟨authority url, defaultPort, trimmedPath url, (stripScheme url).2⟩ := by
  unfold parseEndpoint authority trimmedPath
  dsimp only
  rcases split_slash (stripScheme url).1 with ⟨slash, hfind, htake, hdrop⟩ | ⟨hfind, htake, hdrop⟩
  · rw [hfind, ← htake, ← hdrop]
    rfl
  · rw [hfind, htake, hdrop]
    rfl

/-- An authority without a colon is the host. -/
theorem parseEndpoint_plain (h : 58 ∉ authority url) :
    parseEndpoint url defaultPort
      = .ok ⟨authority url, defaultPort, trimmedPath url, (stripScheme url).2⟩ := by
  have hfind : find (str ":") (authority url) = none := find_letter_eq_none h
  rw [parseEndpoint_eq, hfind]

/-- Of any other authority the part before the first colon is the host. -/
theorem parseEndpoint_port {text : Bytes} (h : authority url = host ++ 58 :: text) (hhost : 58 ∉ host) :
    parseEndpoint url defaultPort
      = (fun port => ⟨host, port, trimmedPath url, (stripScheme url).2⟩) <$> stoi text := by
  have hfind : find (str ":") (authority url) = some host.length := by
    rw [h]
    exact find_letter hhost
  rw [parseEndpoint_eq, hfind]
  simp only [h]
  rw [List.take_left, ← List.drop_drop, List.drop_left]
  rfl

end Parser

/-! ### Ports -/

/-- A decimal number that is a port. -/
structure PortText (ds : Bytes) : Prop where
  ne_nil : ds ≠ []
  digits : ∀ d ∈ ds, Numeral.isDigit 10 d
  value_le : Numeral.value 10 ds ≤ 65535

theorem stoi_portText {ds : Bytes} (h : PortText ds) : stoi ds = .ok (Numeral.value 10 ds : ℤ) := by
  have hread : Numeral.readInt 10 ds = some (false, Numeral.value 10 ds) := by
    have := @Numeral.readInt_digits 10 (by norm_num) [] ds [] (by simp) h.ne_nil h.digits (by simp)
    simpa using this
  have hle := h.value_le
  unfold stoi
  rw [hread]
  exact if_pos (by simp; omega)

theorem PortText.slash_not_mem {ds : Bytes} (h : PortText ds) : 47 ∉ ds := by
  intro hmem
  have := h.digits 47 hmem
  simp [Numeral.isDigit, Numeral.digitVal] at this

/-! ### Well-formed URLs -/

inductive Scheme where
  | https
  | grpcs
  | http
  | grpc
  | none
deriving DecidableEq

def Scheme.text : Scheme → Bytes
  | https => str "https://"
  | grpcs => str "grpcs://"
  | http => str "http://"
  | grpc => str "grpc://"
  | none => []

/-- The schemes that ask for TLS. -/
def Scheme.tls (scheme : Scheme) : Bool := scheme = https || scheme = grpcs

/-- The parts of a well-formed endpoint URL. -/
structure EndpointUrl where
  scheme : Scheme
  host : Bytes
  port : Option Bytes
  path : Bytes
  /-- further slashes at the end -/
  slashes : ℕ
  host_ne : host ≠ []
  host_no_colon : 58 ∉ host
  host_no_slash : 47 ∉ host
  port_text : ∀ ds ∈ port, PortText ds
  path_form : path = [] ∨ path.head? = some 47 ∧ path.getLast? ≠ some 47

namespace EndpointUrl

variable (e : EndpointUrl)

def portText : Bytes :=
  match e.port with
  | some ds => 58 :: ds
  | none => []

def portNumber (defaultPort : ℤ) : ℤ :=
  match e.port with
  | some ds => Numeral.value 10 ds
  | none => defaultPort

/-- What follows the authority. -/
def tail : Bytes := e.path ++ List.replicate e.slashes 47

def render : Bytes := e.scheme.text ++ (e.host ++ e.portText ++ e.tail)

variable {e}

theorem slash_not_mem : 47 ∉ e.host ++ e.portText := by
  rw [List.mem_append, not_or]
  refine ⟨e.host_no_slash, ?_⟩
  unfold portText
  cases h : e.port with
  | none => exact List.not_mem_nil
  | some ds =>
    rw [List.mem_cons, not_or]
    exact ⟨by decide, (e.port_text ds h).slash_not_mem⟩

theorem tail_cases : e.tail = [] ∨ ∃ t, e.tail = 47 :: t := by
  unfold tail
  rcases e.path_form with h | ⟨h, -⟩
  · rw [h, List.nil_append]
    cases e.slashes with
    | zero => exact .inl rfl
    | succ n => exact .inr ⟨_, List.replicate_succ⟩
  · obtain ⟨t, ht⟩ := List.head?_eq_some_iff.mp h
    rw [ht, List.cons_append]
    exact .inr ⟨_, rfl⟩

/-- The extra slashes are dropped from the end, and no more. -/
theorem tail_trimmed : e.tail.rdropWhile (· == 47) = e.path := by
  unfold tail
  rw [List.rdropWhile, List.reverse_append, List.reverse_replicate,
    List.dropWhile_append_of_pos (by simp), List.reverse_eq_iff]
  rcases e.path_form with h | ⟨-, h⟩
  · rw [h]
    rfl
  · rw [List.dropWhile_eq_self_iff]
    intro hpos hlast
    apply h
    rw [List.getLast?_eq_head?_reverse, List.head?_eq_getElem?, List.getElem?_eq_getElem hpos,
      beq_iff_eq.mp hlast]

/-- **The text behind the scheme does not begin like a scheme**: the host would have to be the scheme's
name and the port empty. -/
theorem not_scheme_prefix {text n : Bytes} (htext : text = n ++ [58, 47, 47]) (h47 : 47 ∉ n)
    (h58 : 58 ∉ n) : ¬ text <+: e.host ++ e.portText ++ e.tail := by
  subst htext
  rintro ⟨t, ht⟩
  have hmark : 47 ∉ n ++ [58] := by simp [h47]
  have hsplit : n ++ [58, 47, 47] ++ t = (n ++ [58]) ++ 47 :: (47 :: t) := by simp
  rw [hsplit] at ht
  rcases tail_cases (e := e) with htail | ⟨u, htail⟩
  · rw [htail, List.append_nil] at ht
    exact slash_not_mem (e := e) (ht ▸ by simp)
  · rw [htail] at ht
    obtain ⟨hauth, -⟩ := append_mark_inj hmark slash_not_mem ht
    unfold portText at hauth
    cases hport : e.port with
    | none =>
      rw [hport] at hauth
      refine e.host_no_colon ?_
      rw [← List.append_nil e.host, ← hauth]
      simp
    | some ds =>
      rw [hport] at hauth
      obtain ⟨-, hnil⟩ := append_mark_inj h58 e.host_no_colon hauth
      exact (e.port_text ds hport).ne_nil hnil.symm

theorem stripScheme_render :
    stripScheme e.render = (e.host ++ e.portText ++ e.tail, e.scheme.tls) := by
  unfold render
  cases h : e.scheme with
  | https => rfl
  | grpcs => rfl
  | http => rfl
  | grpc => rfl
  | none =>
    have hhttps : ¬ str "https://" <+: e.host ++ e.portText ++ e.tail :=
      not_scheme_prefix (n := str "https") rfl (by decide) (by decide)
    have hgrpcs : ¬ str "grpcs://" <+: e.host ++ e.portText ++ e.tail :=
      not_scheme_prefix (n := str "grpcs") rfl (by decide) (by decide)
    have hhttp : ¬ str "http://" <+: e.host ++ e.portText ++ e.tail :=
      not_scheme_prefix (n := str "http") rfl (by decide) (by decide)
    have hgrpc : ¬ str "grpc://" <+: e.host ++ e.portText ++ e.tail :=
      not_scheme_prefix (n := str "grpc") rfl (by decide) (by decide)
    unfold stripScheme
    rw [Scheme.text, List.nil_append,
      if_neg hhttps, if_neg hgrpcs, if_neg hhttp, if_neg hgrpc]
    rfl

theorem authority_render : authority e.render = e.host ++ e.portText := by
  unfold authority
  rw [stripScheme_render]
  rcases tail_cases (e := e) with htail | ⟨u, htail⟩
  · rw [htail, List.append_nil, takeWhile_no_letter slash_not_mem]
  · rw [htail, takeWhile_letter slash_not_mem u]

theorem trimmedPath_render : trimmedPath e.render = e.path := by
  unfold trimmedPath
  rw [stripScheme_render, ← tail_trimmed]
  rcases tail_cases (e := e) with htail | ⟨u, htail⟩
  · rw [htail, List.append_nil, dropWhile_no_letter slash_not_mem]
  · rw [htail, dropWhile_letter slash_not_mem u]

end EndpointUrl

/-- **Every well-formed URL is read back**: its host, its port or the default, its path without the
extra slashes, and whether its scheme asks for TLS. -/
theorem parseEndpoint_render (e : EndpointUrl) (defaultPort : ℤ) :
    parseEndpoint e.render defaultPort
      = .ok ⟨e.host, e.portNumber defaultPort, e.path, e.scheme.tls⟩ := by
  have htls : (stripScheme e.render).2 = e.scheme.tls := by rw [EndpointUrl.stripScheme_render]
  have hauth := EndpointUrl.authority_render (e := e)
  unfold EndpointUrl.portText at hauth
  unfold EndpointUrl.portNumber
  cases h : e.port with
  | none =>
    rw [h, List.append_nil] at hauth
    rw [parseEndpoint_plain (hauth ▸ e.host_no_colon), hauth, EndpointUrl.trimmedPath_render, htls]
  | some ds =>
    rw [h] at hauth
    rw [parseEndpoint_port hauth e.host_no_colon, stoi_portText (e.port_text ds h),
      EndpointUrl.trimmedPath_render, htls]
    rfl

example : parseEndpoint (str "http://127.0.0.1:19090/gateway/") 8080
    = .ok ⟨str "127.0.0.1", 19090, str "/gateway", false⟩ := by decide

/-! ### All URLs -/

/-- The endpoint has the host and the port that the authority spells. -/
def Written (auth : Bytes) (defaultPort : ℤ) (ep : Endpoint) : Prop :=
  (auth = ep.host ∧ 58 ∉ ep.host ∧ ep.port = defaultPort) ∨
  ∃ ds, auth = ep.host ++ 58 :: ds ∧ PortText ds ∧ ep.port = Numeral.value 10 ds

/-- The parser returns what the authority spells, or throws. -/
def AuthorityKept (url : Bytes) (defaultPort : ℤ) : Prop :=
  (∃ ep, parseEndpoint url defaultPort = .ok ep ∧ Written (authority url) defaultPort ep) ∨
  ∃ e, parseEndpoint url defaultPort = .throws e

/-- The text behind the first colon is a port, or has no `int` at its start. -/
def PortReadable (auth : Bytes) : Prop :=
  ∀ host text, auth = host ++ 58 :: text → 58 ∉ host → PortText text ∨ ∀ n, stoi text ≠ .ok n

theorem written_iff {host text : Bytes} (hhost : 58 ∉ host) {defaultPort port : ℤ} {path : Bytes}
    {tls : Bool} (hport : stoi text = .ok port) :
    Written (host ++ 58 :: text) defaultPort ⟨host, port, path, tls⟩ ↔ PortText text := by
  constructor
  · rintro (⟨heq, -, -⟩ | ⟨ds, heq, hds, -⟩)
    · exact absurd heq (by simp)
    · obtain ⟨-, rfl⟩ := append_mark_inj hhost hhost heq
      exact hds
  · intro htext
    rw [stoi_portText htext] at hport
    cases hport
    exact .inr ⟨text, rfl, htext, rfl⟩

/-- **When nothing of the authority is lost**: the parser returns the host and the port that are written,
or throws, exactly when what follows the first colon is a port or does not even begin like an `int`. -/
theorem parseEndpoint_keeps_iff (url : Bytes) (defaultPort : ℤ) :
    AuthorityKept url defaultPort ↔ PortReadable (authority url) := by
  unfold AuthorityKept PortReadable
  by_cases hcolon : (58 : UInt8) ∈ authority url
  · obtain ⟨host, text, hauth, hhost⟩ := List.eq_append_cons_of_mem hcolon
    -- the text behind the first colon is the only one to look at
    have hone : (∀ h t, authority url = h ++ 58 :: t → 58 ∉ h → PortText t ∨ ∀ n, stoi t ≠ .ok n) ↔
        (PortText text ∨ ∀ n, stoi text ≠ .ok n) := by
      constructor
      · intro h
        exact h host text hauth hhost
      · intro h host' text' hauth' hhost'
        obtain ⟨rfl, rfl⟩ := append_mark_inj hhost hhost' (hauth.symm.trans hauth')
        exact h
    rw [hone, parseEndpoint_port hauth hhost]
    rcases stoi_cases text with ⟨port, hport⟩ | ⟨e, hthrow, -⟩
    · rw [hport, hauth]
      simp [written_iff hhost hport]
    · have hmap : ∀ f : ℤ → Endpoint, f <$> stoi text = .throws e := fun f => by rw [hthrow]; rfl
      rw [hmap]
      simp [hthrow]
  · rw [parseEndpoint_plain hcolon]
    constructor
    · intro _ host text hauth _
      exact absurd (hauth ▸ by simp) hcolon
    · intro _
      exact .inl ⟨_, rfl, .inl ⟨rfl, hcolon, rfl⟩⟩

/-- A second colon and everything behind it is dropped. -/
theorem parseEndpoint_drops : ¬ AuthorityKept (str "http://h:8080:9090/v2") 80 := by
  have hauth : authority (str "http://h:8080:9090/v2") = [104] ++ 58 :: str "8080:9090" := by decide
  have hparse : parseEndpoint (str "http://h:8080:9090/v2") 80
      = .ok ⟨[104], 8080, str "/v2", false⟩ := by decide
  have hport : stoi (str "8080:9090") = .ok 8080 := by decide
  unfold AuthorityKept
  rw [hparse, hauth]
  rintro (⟨ep, heq, hwritten⟩ | ⟨e, he⟩)
  · cases heq
    rw [written_iff (by decide) hport] at hwritten
    have := hwritten.digits 58 (by decide)
    simp [Numeral.isDigit, Numeral.digitVal] at this
  · cases he

end KserveClient
