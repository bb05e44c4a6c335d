import KserveClient.Transport

/-!
# KserveClient.SendBytes — what the two transports put on the wire

A call with a positive length accepts between one byte and that many; one with a length that is not
positive fails (`Accepts`).  `SendsExactly` is what `sendAll` owes under every such sequence of results.

* `sendLoop_exact`: the loop from position `sent` on sends `data.drop sent`, as long as the conversion
  of the remaining size to the length of a call is exact.
* `sendAll_exact_iff`: the plain transport always does its duty, the TLS transport up to 2³¹ − 1 bytes.
-/

namespace KserveClient

/-! ### The duty -/

/-- What a call to `::send` or `SSL_write` with length `length` may return. -/
def Accepts (length n : ℤ) : Prop := (0 < length → 1 ≤ n ∧ n ≤ length) ∧ (length ≤ 0 → n ≤ 0)

/-- The results are possible ones of the calls that the loop makes from `sent` on. -/
def Possible (conn : Connection) (size : ℕ) (accepted : List ℤ) (sent : ℕ) : Prop :=
  ∀ p ∈ (sendLoop conn size accepted sent).1.zip accepted, Accepts p.1.2 p.2

/-- The bytes that the calls hand over, one after the other. -/
def transmitted (data : Bytes) (calls : List (ℕ × ℤ)) (accepted : List ℤ) : Bytes :=
  (calls.zip accepted).flatMap fun p => (data.drop p.1.1).take p.2.toNat

/-- The loop from `sent` on sends exactly the rest of the data. -/
structure Exact (conn : Connection) (data : Bytes) (accepted : List ℤ) (sent : ℕ) : Prop where
  /-- no call has a length that is not positive or larger than what is left -/
  lengths : ∀ call ∈ (sendLoop conn data.length accepted sent).1,
    0 < call.2 ∧ call.2 ≤ data.length - call.1
  no_throw : ∀ e, (sendLoop conn data.length accepted sent).2 ≠ .throws e
  /-- each result takes the loop further -/
  ends : data.length - sent ≤ accepted.length → (sendLoop conn data.length accepted sent).2 = .ok ()
  bytes : (sendLoop conn data.length accepted sent).2 = .ok () →
    transmitted data (sendLoop conn data.length accepted sent).1 accepted = data.drop sent

/-- `sendAll` sends exactly `data`, however the bytes are accepted. -/
def SendsExactly (conn : Connection) (data : Bytes) : Prop :=
  ∀ accepted, Possible conn data.length accepted 0 → Exact conn data accepted 0

/-! ### The loop -/

section Loop

variable {conn : Connection} {data : Bytes} {accepted : List ℤ} {n : ℤ} {size sent : ℕ}

theorem sendLoop_done (conn : Connection) (accepted : List ℤ) (h : size ≤ sent) :
    sendLoop conn size accepted sent = ([], .ok ()) := by
  cases accepted with
  | nil => exact if_neg (by omega)
  | cons n accepted => exact if_neg (by omega)

theorem sendLoop_waits (conn : Connection) (h : sent < size) :
    sendLoop conn size [] sent = ([(sent, sendLength conn (size - sent))], .blocked) :=
  if_pos h

theorem sendLoop_accepts (conn : Connection) (accepted : List ℤ) (h : sent < size) (hn : 0 < n) :
    sendLoop conn size (n :: accepted) sent =
      ((sent, sendLength conn (size - sent)) :: (sendLoop conn size accepted (sent + n.toNat)).1,
        (sendLoop conn size accepted (sent + n.toNat)).2) := by
  refine (if_pos h).trans ?_
  exact if_neg (by omega)

theorem sendLoop_refused (conn : Connection) (accepted : List ℤ) (h : sent < size) (hn : n ≤ 0) :
    ∃ e, sendLoop conn size (n :: accepted) sent
      = ([(sent, sendLength conn (size - sent))], .throws e) := by
  unfold sendLoop
  dsimp only
  rw [if_pos h, if_pos hn]
  exact ⟨_, rfl⟩

theorem first_call_mem (h : sent < size) :
    ((sent, sendLength conn (size - sent)), n)
      ∈ (sendLoop conn size (n :: accepted) sent).1.zip (n :: accepted) := by
  by_cases hn : 0 < n
  · rw [sendLoop_accepts conn accepted h hn]
    exact List.mem_cons_self
  · obtain ⟨e, he⟩ := sendLoop_refused conn accepted h (not_lt.mp hn)
    rw [he]
    exact List.mem_cons_self

/-- The conversion of the remaining size is exact on the plain transport, and below 2³¹. -/
theorem sendLength_exact {left : ℕ} (h : conn = .plain ∨ left < 2 ^ 31) : sendLength conn left = left := by
  unfold sendLength
  rcases h with rfl | h
  · rfl
  · cases conn with
    | plain => rfl
    | tls => dsimp only; omega

theorem exact_done : Exact conn data accepted data.length := by
  have hstop := sendLoop_done conn accepted (le_refl data.length)
  refine ⟨?_, ?_, ?_, ?_⟩
  · simp [hstop]
  · simp [hstop]
  · simp [hstop]
  · intro _
    rw [hstop, List.drop_length]
    rfl

/-- No result is left for the first call. -/
theorem exact_waits (hfits : conn = .plain ∨ data.length < 2 ^ 31) (hmore : sent < data.length) :
    Exact conn data [] sent := by
  have hlength : sendLength conn (data.length - sent) = (data.length - sent : ℕ) :=
    sendLength_exact (hfits.imp_right fun h => by omega)
  have hwait := sendLoop_waits conn hmore
  refine ⟨?_, ?_, ?_, ?_⟩
  · simp [hwait, hlength]
    omega
  · simp [hwait]
  · intro hends
    rw [List.length_nil] at hends
    omega
  · simp [hwait]

/-- **One call**: if the loop behind it is exact, so is the loop from it on. -/
theorem exact_accepts (hlength : sendLength conn (data.length - sent) = (data.length - sent : ℕ))
    (hmore : sent < data.length) (hn : 1 ≤ n ∧ n ≤ (data.length - sent : ℕ))
    (hrest : Exact conn data accepted (sent + n.toNat)) : Exact conn data (n :: accepted) sent := by
  have hstep := sendLoop_accepts conn accepted hmore hn.1
  refine ⟨?_, ?_, ?_, ?_⟩
  · rw [hstep]
    intro call hcall
    rcases List.mem_cons.mp hcall with rfl | hcall
    · rw [hlength]
      dsimp only
      omega
    · exact hrest.lengths call hcall
  · rw [hstep]
    exact hrest.no_throw
  · rw [hstep, List.length_cons]
    intro hle
    exact hrest.ends (by omega)
  · rw [hstep]
    intro hok
    show (data.drop sent).take n.toNat ++ transmitted data _ accepted = data.drop sent
    rw [hrest.bytes hok, ← List.drop_drop, List.take_append_drop]

/-- **The loop sends the rest.** -/
theorem sendLoop_exact (hfits : conn = .plain ∨ data.length < 2 ^ 31)
    (hpossible : Possible conn data.length accepted sent) (hsent : sent ≤ data.length) :
    Exact conn data accepted sent := by
  -- on the results that are still to come
  induction accepted generalizing sent with
  | nil =>
    rcases hsent.eq_or_lt with rfl | hmore
    · exact exact_done
    · exact exact_waits hfits hmore
  | cons n accepted ih =>
    rcases hsent.eq_or_lt with rfl | hmore
    · exact exact_done
    · have hlength : sendLength conn (data.length - sent) = (data.length - sent : ℕ) :=
        sendLength_exact (hfits.imp_right fun h => by omega)
      -- the call accepts something, as its length is positive
      have hn : 1 ≤ n ∧ n ≤ (data.length - sent : ℕ) := by
        have hfirst : Accepts (sendLength conn (data.length - sent)) n :=
          hpossible ((sent, sendLength conn (data.length - sent)), n) (first_call_mem hmore)
        rw [hlength] at hfirst
        exact hfirst.1 (by omega)
      have hstep := sendLoop_accepts conn accepted hmore hn.1
      have hrest : Possible conn data.length accepted (sent + n.toNat) :=
        fun p hp => hpossible p (by rw [hstep]; exact List.mem_cons_of_mem _ hp)
      exact exact_accepts hlength hmore hn (ih hrest (by omega))

end Loop

/-! ### Both transports -/

theorem sendLength_tls (left : ℕ) : sendLength .tls left = (left + 2 ^ 31) % 2 ^ 32 - 2 ^ 31 := rfl

/-- **From 2³¹ bytes on** the first length or the second one is not positive: once as many bytes are
accepted as the first conversion lets through, 2³² divides what is left. -/
theorem tls_bad_call {data : Bytes} (hlarge : 2 ^ 31 ≤ data.length) :
    ∃ accepted, Possible .tls data.length accepted 0 ∧
      ∃ call ∈ (sendLoop .tls data.length accepted 0).1, call.2 ≤ 0 := by
  generalize data.length = size at hlarge
  have hpos : 0 < size := by omega
  have hlength := sendLength_tls size
  by_cases hfirst : sendLength .tls size ≤ 0
  · refine ⟨[], ?_, (0, sendLength .tls size), ?_, hfirst⟩
    · rw [Possible, List.zip_nil_right]
      exact fun p hp => absurd hp List.not_mem_nil
    · rw [sendLoop_waits .tls hpos]
      exact List.mem_singleton_self _
  · obtain ⟨n, hn⟩ : ∃ n : ℕ, n = size % 2 ^ 32 := ⟨_, rfl⟩
    have hmore : 0 + (n : ℤ).toNat < size := by omega
    have hstep := sendLoop_accepts .tls [] hpos (show (0 : ℤ) < n by omega)
    have hsecond : sendLength .tls (size - (0 + (n : ℤ).toNat)) = 0 := by
      rw [sendLength_tls]
      omega
    rw [sendLoop_waits .tls hmore, hsecond] at hstep
    refine ⟨[(n : ℤ)], ?_, (0 + (n : ℤ).toNat, 0), ?_, le_rfl⟩
    · intro p hp
      rw [hstep] at hp
      obtain rfl := List.mem_singleton.mp hp
      refine ⟨fun _ => ?_, fun h => absurd h hfirst⟩
      dsimp only
      rw [Nat.sub_zero]
      omega
    · rw [hstep]
      simp

/-- **When the request goes out whole**: always over the plain transport, and over TLS for fewer than
2³¹ bytes. -/
theorem sendAll_exact_iff (conn : Connection) (data : Bytes) :
    SendsExactly conn data ↔ conn = .plain ∨ data.length < 2 ^ 31 := by
  constructor
  · intro hexact
    by_contra hnot
    rw [not_or, not_lt] at hnot
    obtain ⟨htls, hlarge⟩ := hnot
    have htls : conn = .tls := by
      cases conn with
      | plain => exact absurd rfl htls
      | tls => rfl
    subst htls
    obtain ⟨accepted, hpossible, call, hmem, hbad⟩ := tls_bad_call hlarge
    have := (hexact accepted hpossible).lengths call hmem
    omega
  · intro hfits accepted hpossible
    exact sendLoop_exact hfits hpossible (Nat.zero_le _)

/-- A request of 2³¹ bytes: the length of the first call is −2³¹, and the call fails. -/
theorem sendAll_tls_fails : ¬ SendsExactly .tls (List.replicate (2 ^ 31) 0) := by
  intro hexact
  have hsize : (List.replicate (2 ^ 31) (0 : UInt8)).length = 2 ^ 31 := List.length_replicate
  have hpos : 0 < 2 ^ 31 := by norm_num
  have hneg : (-1 : ℤ) ≤ 0 := by norm_num
  obtain ⟨e, he⟩ := sendLoop_refused .tls [] hpos hneg
  refine (hexact [-1] ?_).no_throw e (by rw [hsize, he])
  intro p hp
  rw [hsize, he] at hp
  obtain rfl := List.mem_singleton.mp hp
  exact ⟨fun h => absurd h (by rw [sendLength_tls]; norm_num), fun _ => by norm_num⟩

end KserveClient
