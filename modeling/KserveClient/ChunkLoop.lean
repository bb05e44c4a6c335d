import KserveClient.HttpMessage
import KserveClient.Lib.Loop

/-!
# KserveClient.ChunkLoop — the loop that undoes the chunked coding

`chunkRound` is one round of the loop, and `SizeAt` says which size line stands at a position.  The loop
looks for size lines at the places of `ChunkPlace`: the start of the body, and behind every chunk that
seems to fit, in arithmetic modulo `2 ^ 64`.

* `dechunk_of_ends`: the rounds that `dechunk` has are enough for every loop that ends.
* `dechunk_throws_iff`: a truncated chunk is what the loop rejects.
* `dechunk_terminates_iff`: the sizes with which the loop does not move forward.
-/

namespace KserveClient

open ListSearch StateTransition

/-! ### One round -/

/-- What one round of the loop does. -/
inductive ChunkRound where
  | ends (result : Outcome Bytes)
  | goesOn (pos : ℕ) (decoded : Bytes)
deriving DecidableEq

/-- The body of the loop in `dechunkFrom`. -/
def chunkRound (body : Bytes) (pos : ℕ) (decoded : Bytes) : ChunkRound :=
  if pos < body.length then
    match findFrom crlf body pos with
    | none => .ends (.ok decoded)
    | some lineEnd =>
      match chunkSize ((body.drop pos).take (lineEnd - pos)) with
      | .ok size =>
        if size = 0 then .ends (.ok decoded)
        else
          let dataStart := lineEnd + 2
          if body.length < (dataStart + size) % sizeMod then
            .ends (throwRuntime (str "invalid chunked HTTP body: truncated chunk"))
          else
            .goesOn ((dataStart + size + 2) % sizeMod) (decoded ++ (body.drop dataStart).take size)
      | _ => .ends (.ok decoded)
  else .ends (.ok decoded)

/-- A size line stands at `pos`: its text, and the size that is read from it. -/
def SizeAt (body : Bytes) (pos : ℕ) (token : Bytes) (size : ℕ) : Prop :=
  ¬ crlf <:+: token ∧ token ++ crlf <+: body.drop pos ∧ chunkSize token = .ok size

/-- The places at which the loop looks for a size line. -/
inductive ChunkPlace (body : Bytes) : ℕ → Prop
  | start : ChunkPlace body 0
  | behind {pos size : ℕ} {token : Bytes} (place : ChunkPlace body pos)
      (line : SizeAt body pos token size) (nonzero : size ≠ 0)
      (fits : (pos + token.length + 2 + size) % sizeMod ≤ body.length) :
      ChunkPlace body ((pos + token.length + 2 + size + 2) % sizeMod)

variable {body token token' decoded : Bytes} {pos pos' size size' rounds : ℕ}

theorem dechunkFrom_succ : dechunkFrom body (rounds + 1) pos decoded =
    match chunkRound body pos decoded with
    | .ends result => result
    | .goesOn pos decoded => dechunkFrom body rounds pos decoded := by
  rw [dechunkFrom, chunkRound]
  by_cases hpos : pos < body.length
  · rw [if_pos hpos, if_pos hpos]
    cases findFrom crlf body pos with
    | none => rfl
    | some lineEnd =>
      simp only
      cases chunkSize ((body.drop pos).take (lineEnd - pos)) with
      | ok size =>
        simp only
        by_cases hzero : size = 0
        · rw [if_pos hzero, if_pos hzero]
        · rw [if_neg hzero, if_neg hzero]
          by_cases hfits : body.length < (lineEnd + 2 + size) % sizeMod
          · rw [if_pos hfits, if_pos hfits]
          · rw [if_neg hfits, if_neg hfits]
      | _ => rfl
  · rw [if_neg hpos, if_neg hpos]

/-- The size line at a place is found. -/
theorem SizeAt.found (h : SizeAt body pos token size) : pos < body.length ∧
    findFrom crlf body pos = some (pos + token.length) ∧ (body.drop pos).take token.length = token := by
  obtain ⟨htoken, ⟨rest, hrest⟩, -⟩ := h
  have hlen := congrArg List.length hrest
  have hcrlf : crlf.length = 2 := rfl
  rw [List.length_append, List.length_append, List.length_drop, hcrlf] at hlen
  have hfind : find crlf (body.drop pos) = some token.length := by
    rw [← hrest, List.append_assoc]
    exact find_pair (by decide) htoken
  refine ⟨by omega, ?_, ?_⟩
  · rw [findFrom, if_pos (by omega), hfind, Option.map_some, Nat.add_comm]
  · rw [← hrest, List.append_assoc, List.take_left]

theorem SizeAt.length_le (h : SizeAt body pos token size) : pos + token.length + 2 ≤ body.length := by
  obtain ⟨-, hpre, -⟩ := h
  have hlen := hpre.length_le
  have hcrlf : crlf.length = 2 := rfl
  rw [List.length_append, List.length_drop, hcrlf] at hlen
  omega

theorem chunkSize_lt (h : chunkSize token = .ok size) : size < sizeMod := by
  have hstoul : ∀ {s : Bytes}, stoul16 s = .ok size → size < sizeMod := by
    intro s hs
    rw [stoul16] at hs
    split at hs
    · cases hs
    · split_ifs at hs with hn hneg
      · cases hs
        exact Nat.mod_lt _ (by decide)
      · cases hs
        exact hn
  rw [chunkSize] at h
  split at h
  · exact hstoul h
  · exact hstoul h

/-- There is one size line at a place. -/
theorem SizeAt.unique (h : SizeAt body pos token size) (h' : SizeAt body pos token' size') :
    token = token' ∧ size = size' := by
  obtain ⟨-, hfind, htake⟩ := h.found
  obtain ⟨-, hfind', htake'⟩ := h'.found
  have hlen : token.length = token'.length := by
    rw [hfind, Option.some.injEq] at hfind'
    omega
  obtain rfl : token = token' := by rw [← htake, ← htake', hlen]
  have hsize := h.2.2.symm.trans h'.2.2
  exact ⟨rfl, Outcome.ok.inj hsize⟩

/-- **A round at a size line.** -/
theorem chunkRound_of_sizeAt (h : SizeAt body pos token size) : chunkRound body pos decoded =
    if size = 0 then .ends (.ok decoded)
    else if body.length < (pos + token.length + 2 + size) % sizeMod then
      .ends (throwRuntime (str "invalid chunked HTTP body: truncated chunk"))
    else .goesOn ((pos + token.length + 2 + size + 2) % sizeMod)
      (decoded ++ (body.drop (pos + token.length + 2)).take size) := by
  obtain ⟨hpos, hfind, htake⟩ := h.found
  have hsub : pos + token.length - pos = token.length := by omega
  rw [chunkRound, if_pos hpos, hfind]
  simp only [hsub, htake, h.2.2]

/-- A round at a place without a size line. -/
theorem chunkRound_of_not (h : ∀ token size, ¬ SizeAt body pos token size) :
    chunkRound body pos decoded = .ends (.ok decoded) := by
  rw [chunkRound]
  by_cases hpos : pos < body.length
  · rw [if_pos hpos]
    cases hfind : findFrom crlf body pos with
    | none => rfl
    | some lineEnd =>
      simp only
      cases hsize : chunkSize ((body.drop pos).take (lineEnd - pos)) with
      | ok size =>
        refine absurd ⟨?_, ?_, hsize⟩ (h _ size)
        all_goals
          rw [findFrom, if_pos hpos.le] at hfind
          obtain ⟨i, hi, rfl⟩ := Option.map_eq_some_iff.mp hfind
          rw [Nat.add_sub_cancel]
        · exact not_infix_take (by simp [crlf]) hi
        · exact ⟨_, (find_split hi).symm⟩
      | _ => rfl
  · rw [if_neg hpos]

/-- **A round that goes on.** -/
theorem chunkRound_eq_goesOn {decoded' : Bytes} : chunkRound body pos decoded = .goesOn pos' decoded' ↔
    ∃ token size, SizeAt body pos token size ∧ size ≠ 0 ∧
      (pos + token.length + 2 + size) % sizeMod ≤ body.length ∧
      pos' = (pos + token.length + 2 + size + 2) % sizeMod ∧
      decoded' = decoded ++ (body.drop (pos + token.length + 2)).take size := by
  constructor
  · intro h
    by_cases hline : ∃ token size, SizeAt body pos token size
    · obtain ⟨token, size, hline⟩ := hline
      rw [chunkRound_of_sizeAt hline] at h
      split_ifs at h with hzero hfits
      cases h
      exact ⟨token, size, hline, hzero, Nat.le_of_not_lt hfits, rfl, rfl⟩
    · rw [chunkRound_of_not fun token size h => hline ⟨token, size, h⟩] at h
      cases h
  · rintro ⟨token, size, hline, hzero, hfits, rfl, rfl⟩
    rw [chunkRound_of_sizeAt hline, if_neg hzero, if_neg (by omega)]

/-! ### The whole loop -/

/-- The place that the loop goes on to. -/
def nextPlace (body : Bytes) (pos : ℕ) : Option ℕ :=
  match chunkRound body pos [] with
  | .ends _ => none
  | .goesOn pos _ => some pos

theorem nextPlace_eq_some : nextPlace body pos = some pos' ↔ ∃ token size, SizeAt body pos token size ∧
    size ≠ 0 ∧ (pos + token.length + 2 + size) % sizeMod ≤ body.length ∧
    pos' = (pos + token.length + 2 + size + 2) % sizeMod := by
  rw [nextPlace]
  constructor
  · intro h
    cases hround : chunkRound body pos [] with
    | ends result => rw [hround] at h; cases h
    | goesOn p d =>
      rw [hround] at h
      cases h
      obtain ⟨token, size, hline, hzero, hfits, hp, -⟩ := chunkRound_eq_goesOn.mp hround
      exact ⟨token, size, hline, hzero, hfits, hp⟩
  · rintro ⟨token, size, hline, hzero, hfits, hp⟩
    rw [chunkRound_eq_goesOn.mpr ⟨token, size, hline, hzero, hfits, hp, rfl⟩]

theorem chunkPlace_iff : ChunkPlace body pos ↔ Reaches (nextPlace body) 0 pos := by
  constructor
  · intro h
    induction h with
    | start => exact .refl
    | behind _ line nonzero fits ih =>
      exact ih.tail (nextPlace_eq_some.mpr ⟨_, _, line, nonzero, fits, rfl⟩)
  · intro h
    induction h with
    | refl => exact .start
    | tail _ hstep ih =>
      obtain ⟨token, size, line, nonzero, fits, rfl⟩ := nextPlace_eq_some.mp hstep
      exact .behind ih line nonzero fits

/-- A round goes on to the next place. -/
theorem dechunkFrom_next (h : nextPlace body pos = some pos') (decoded : Bytes) :
    ∃ decoded', ∀ rounds, dechunkFrom body (rounds + 1) pos decoded =
      dechunkFrom body rounds pos' decoded' := by
  obtain ⟨token, size, line, nonzero, fits, rfl⟩ := nextPlace_eq_some.mp h
  refine ⟨decoded ++ (body.drop (pos + token.length + 2)).take size, fun rounds => ?_⟩
  rw [dechunkFrom_succ, chunkRound_of_sizeAt line, if_neg nonzero, if_neg (by omega)]

theorem dechunkFrom_after {k : ℕ} (h : Loop.after (nextPlace body) k pos = some pos') (decoded : Bytes) :
    ∃ decoded', ∀ rounds, dechunkFrom body (k + rounds) pos decoded =
      dechunkFrom body rounds pos' decoded' := by
  induction k generalizing pos decoded with
  | zero =>
    cases h
    exact ⟨decoded, fun rounds => by rw [Nat.zero_add]⟩
  | succ k ih =>
    obtain ⟨next, hnext, hrest⟩ := Option.bind_eq_some_iff.mp h
    obtain ⟨decoded₁, hone⟩ := dechunkFrom_next hnext decoded
    obtain ⟨decoded₂, hmany⟩ := ih hrest decoded₁
    refine ⟨decoded₂, fun rounds => ?_⟩
    rw [Nat.succ_add, hone, hmany]

/-- A run that does not use up its rounds stops at a place without a next one. -/
theorem dechunkFrom_stops (h : dechunkFrom body rounds pos decoded ≠ .diverges) :
    ∃ k last, Loop.after (nextPlace body) k pos = some last ∧ nextPlace body last = none ∧
      ∀ more, dechunkFrom body (k + (more + 1)) pos decoded = dechunkFrom body rounds pos decoded := by
  induction rounds generalizing pos decoded with
  | zero => exact absurd rfl h
  | succ rounds ih =>
    rw [dechunkFrom_succ] at h ⊢
    cases hround : chunkRound body pos decoded with
    | ends result =>
      refine ⟨0, pos, rfl, ?_, fun more => ?_⟩
      · cases hnext : nextPlace body pos with
        | none => rfl
        | some next =>
          obtain ⟨token, size, hline, hzero, hfits, -⟩ := nextPlace_eq_some.mp hnext
          rw [chunkRound_eq_goesOn.mpr ⟨token, size, hline, hzero, hfits, rfl, rfl⟩] at hround
          cases hround
      · rw [Nat.zero_add, dechunkFrom_succ, hround]
    | goesOn next decoded' =>
      rw [hround] at h
      obtain ⟨token, size, hline, hzero, hfits, hpos, -⟩ := chunkRound_eq_goesOn.mp hround
      have hnext : nextPlace body pos = some next :=
        nextPlace_eq_some.mpr ⟨token, size, hline, hzero, hfits, hpos⟩
      obtain ⟨k, last, hk, hlast, hmore⟩ := ih h
      refine ⟨k + 1, last, ?_, hlast, fun more => ?_⟩
      · rw [Loop.after, hnext, Option.bind_some, hk]
      · rw [Nat.succ_add, dechunkFrom_succ, hround]
        exact hmore more

/-- **The rounds of `dechunk` are enough**: the loop visits no place twice, and the places with a round
that goes on are inside the body. -/
theorem dechunk_of_ends (h : dechunkFrom body rounds 0 [] ≠ .diverges) :
    dechunk body = dechunkFrom body rounds 0 [] := by
  obtain ⟨k, last, hk, hlast, hmore⟩ := dechunkFrom_stops h
  have hinside : ∀ x y, nextPlace body x = some y → x ∈ Finset.range body.length := by
    intro x y hnext
    obtain ⟨token, size, hline, -⟩ := nextPlace_eq_some.mp hnext
    exact Finset.mem_range.mpr hline.found.1
  have hcard := Loop.le_card hinside hk hlast
  rw [Finset.card_range] at hcard
  have hrounds : body.length + 1 = k + (body.length - k + 1) := by omega
  rw [dechunk, hrounds, hmore]

/-! ### Complete bodies -/

/-- A size line that is read as the number of the data bytes. -/
structure Sized (token data : Bytes) : Prop where
  token_ok : ¬ crlf <:+: token
  reads : chunkSize token = .ok data.length
  data_ne : data ≠ []

/-- A chunk with this size line and this data. -/
def chunkBytes (c : Bytes × Bytes) : Bytes := c.1 ++ crlf ++ c.2 ++ crlf

/-- **One chunk**: the data is appended, and the position moves behind the chunk. -/
theorem dechunkFrom_chunk {before tail : Bytes} {c : Bytes × Bytes} (hc : Sized c.1 c.2)
    (hbody : body = before ++ chunkBytes c ++ tail) (hsize : body.length < maxSize) :
    dechunkFrom body (rounds + 1) before.length decoded =
      dechunkFrom body rounds (before ++ chunkBytes c).length (decoded ++ c.2) := by
  obtain ⟨token, data⟩ := c
  have hcrlf : crlf.length = 2 := rfl
  have hgroup : body = before ++ token ++ crlf ++ (data ++ (crlf ++ tail)) := by
    rw [hbody]
    simp [chunkBytes]
  have hline : SizeAt body before.length token data.length := by
    refine ⟨hc.token_ok, ⟨data ++ (crlf ++ tail), ?_⟩, hc.reads⟩
    rw [hgroup, List.append_assoc, List.append_assoc, List.append_assoc, List.drop_left]
  have hzero : data.length ≠ 0 := fun h => hc.data_ne (List.length_eq_zero_iff.mp h)
  have hstart : before.length + token.length + 2 = (before ++ token ++ crlf).length := by
    simp only [List.length_append, hcrlf]
  have hdata : (body.drop (before.length + token.length + 2)).take data.length = data := by
    rw [hstart, hgroup, List.drop_left, List.take_left]
  have hlen := congrArg List.length hgroup
  have hend : (before ++ chunkBytes (token, data)).length =
      before.length + token.length + 2 + data.length + 2 := by
    simp only [chunkBytes, List.length_append, hcrlf]
    omega
  simp only [List.length_append, hcrlf] at hlen
  rw [maxSize] at hsize
  have hmod : ∀ n ≤ body.length, n % sizeMod = n := fun n hn => by
    rw [sizeMod]
    omega
  rw [dechunkFrom_succ, chunkRound_of_sizeAt hline, if_neg hzero, hmod _ (by omega),
    if_neg (by omega), hdata, hmod _ (by omega), hend]

theorem dechunkFrom_chunks {tail : Bytes} (chunks : List (Bytes × Bytes)) {before : Bytes}
    (hchunks : ∀ c ∈ chunks, Sized c.1 c.2)
    (hbody : body = before ++ chunks.flatMap chunkBytes ++ tail) (hsize : body.length < maxSize) :
    dechunkFrom body (chunks.length + rounds) before.length decoded =
      dechunkFrom body rounds (before ++ chunks.flatMap chunkBytes).length
        (decoded ++ chunks.flatMap Prod.snd) := by
  induction chunks generalizing before decoded with
  | nil => simp
  | cons c chunks ih =>
    rw [List.forall_mem_cons] at hchunks
    have hone : body = before ++ chunkBytes c ++ (chunks.flatMap chunkBytes ++ tail) := by
      rw [hbody]
      simp
    have hrest : body = before ++ chunkBytes c ++ chunks.flatMap chunkBytes ++ tail := by
      rw [hbody]
      simp
    have hrounds : (c :: chunks).length + rounds = chunks.length + rounds + 1 := by
      rw [List.length_cons]
      omega
    rw [hrounds, dechunkFrom_chunk hchunks.1 hone hsize, ih hchunks.2 hrest]
    simp

/-- **A complete body** is decoded to its data, whatever follows the last chunk's size line. -/
theorem dechunk_chunks {chunks : List (Bytes × Bytes)} {last rest : Bytes}
    (hchunks : ∀ c ∈ chunks, Sized c.1 c.2) (hlast : ¬ crlf <:+: last) (hzero : chunkSize last = .ok 0)
    (hbody : body = chunks.flatMap chunkBytes ++ (last ++ crlf ++ rest))
    (hsize : body.length < maxSize) : dechunk body = .ok (chunks.flatMap Prod.snd) := by
  have hline : SizeAt body (chunks.flatMap chunkBytes).length last 0 := by
    refine ⟨hlast, ⟨rest, ?_⟩, hzero⟩
    rw [hbody, List.drop_left]
  have hrun : dechunkFrom body (chunks.length + 1) 0 [] = .ok (chunks.flatMap Prod.snd) := by
    have hloop := @dechunkFrom_chunks body [] 1 (last ++ crlf ++ rest) chunks [] hchunks
      (by rw [hbody, List.nil_append]) hsize
    rw [List.length_nil, List.nil_append, List.nil_append] at hloop
    rw [hloop, dechunkFrom_succ, chunkRound_of_sizeAt hline, if_pos rfl]
  rw [dechunk_of_ends (by rw [hrun]; exact fun h => by cases h), hrun]

/-! ### Truncated chunks -/

/-- The data of the chunk at some place runs past the end of the body. -/
def Truncated (body : Bytes) : Prop :=
  ∃ pos token size, ChunkPlace body pos ∧ SizeAt body pos token size ∧ size ≠ 0 ∧
    body.length < (pos + token.length + 2 + size) % sizeMod

theorem dechunk_truncated (h : Truncated body) :
    dechunk body = throwRuntime (str "invalid chunked HTTP body: truncated chunk") := by
  obtain ⟨pos, token, size, hplace, hline, hzero, hlong⟩ := h
  obtain ⟨k, hk⟩ := Loop.reaches_iff.mp (chunkPlace_iff.mp hplace)
  obtain ⟨decoded, hrun⟩ := dechunkFrom_after hk []
  have hends : dechunkFrom body (k + 1) 0 [] =
      throwRuntime (str "invalid chunked HTTP body: truncated chunk") := by
    rw [hrun, dechunkFrom_succ, chunkRound_of_sizeAt hline, if_neg hzero, if_pos hlong]
  rw [← hends]
  exact dechunk_of_ends (by rw [hends]; exact fun h => by cases h)

/-- A round ends in a result, or rejects a truncated chunk. -/
theorem chunkRound_eq_ends {result : Outcome Bytes} (hplace : ChunkPlace body pos)
    (h : chunkRound body pos decoded = .ends result) : result = .ok decoded ∨
      Truncated body ∧ result = throwRuntime (str "invalid chunked HTTP body: truncated chunk") := by
  by_cases hline : ∃ token size, SizeAt body pos token size
  · obtain ⟨token, size, hline⟩ := hline
    rw [chunkRound_of_sizeAt hline] at h
    split_ifs at h with hzero hlong
    · cases h
      exact .inl rfl
    · cases h
      exact .inr ⟨⟨pos, token, size, hplace, hline, hzero, hlong⟩, rfl⟩
  · rw [chunkRound_of_not fun token size h => hline ⟨token, size, h⟩] at h
    cases h
    exact .inl rfl

/-- **What the loop can end in**: a body, the rejection of a truncated chunk, or nothing. -/
theorem dechunkFrom_cases (hplace : ChunkPlace body pos) :
    (∃ decoded', dechunkFrom body rounds pos decoded = .ok decoded') ∨ Truncated body ∨
      dechunkFrom body rounds pos decoded = .diverges := by
  induction rounds generalizing pos decoded with
  | zero => exact .inr (.inr rfl)
  | succ rounds ih =>
    rw [dechunkFrom_succ]
    cases hround : chunkRound body pos decoded with
    | ends result =>
      rcases chunkRound_eq_ends hplace hround with rfl | ⟨htruncated, -⟩
      · exact .inl ⟨decoded, rfl⟩
      · exact .inr (.inl htruncated)
    | goesOn pos' decoded' =>
      obtain ⟨token, size, hline, hzero, hfits, rfl, -⟩ := chunkRound_eq_goesOn.mp hround
      exact ih (.behind hplace hline hzero hfits)

theorem dechunk_cases (body : Bytes) :
    (∃ decoded, dechunk body = .ok decoded) ∨ Truncated body ∨ dechunk body = .diverges :=
  dechunkFrom_cases .start

theorem dechunk_throws_iff : (∃ e, dechunk body = .throws e) ↔ Truncated body := by
  constructor
  · rintro ⟨e, h⟩
    rcases dechunk_cases body with ⟨decoded, hok⟩ | htruncated | hdiverges
    · rw [hok] at h
      cases h
    · exact htruncated
    · rw [hdiverges] at h
      cases h
  · intro h
    exact ⟨_, dechunk_truncated h⟩

/-! ### Stopping -/

/-- The loop comes to a place without a readable nonzero size whose data fits. -/
def Stops (body : Bytes) : Prop :=
  ∃ pos, ChunkPlace body pos ∧ ∀ token size, SizeAt body pos token size → size ≠ 0 →
    body.length < (pos + token.length + 2 + size) % sizeMod

theorem nextPlace_eq_none : nextPlace body pos = none ↔ ∀ token size, SizeAt body pos token size →
    size ≠ 0 → body.length < (pos + token.length + 2 + size) % sizeMod := by
  constructor
  · intro h token size hline hzero
    by_contra hfits
    rw [nextPlace_eq_some.mpr ⟨token, size, hline, hzero, not_lt.mp hfits, rfl⟩] at h
    cases h
  · intro h
    cases hnext : nextPlace body pos with
    | none => rfl
    | some next =>
      obtain ⟨token, size, hline, hzero, hfits, -⟩ := nextPlace_eq_some.mp hnext
      exact absurd (h token size hline hzero) (not_lt.mpr hfits)

theorem dechunk_stops_iff : dechunk body ≠ .diverges ↔ Stops body := by
  constructor
  · intro h
    obtain ⟨k, last, hk, hlast, -⟩ := dechunkFrom_stops h
    exact ⟨last, chunkPlace_iff.mpr (Loop.reaches_iff.mpr ⟨k, hk⟩), nextPlace_eq_none.mp hlast⟩
  · rintro ⟨pos, hplace, hlast⟩
    obtain ⟨k, hk⟩ := Loop.reaches_iff.mp (chunkPlace_iff.mp hplace)
    obtain ⟨decoded, hrun⟩ := dechunkFrom_after hk []
    -- the round at that place is the last one
    have hends : dechunkFrom body (k + 1) 0 [] ≠ .diverges := by
      rw [hrun, dechunkFrom_succ]
      cases hround : chunkRound body pos decoded with
      | ends result =>
        rcases chunkRound_eq_ends hplace hround with rfl | ⟨-, rfl⟩
        · exact fun h => by cases h
        · exact fun h => by cases h
      | goesOn pos' decoded' =>
        obtain ⟨token, size, hline, hzero, hfits, -⟩ := chunkRound_eq_goesOn.mp hround
        exact absurd (hlast token size hline hzero) (not_lt.mpr hfits)
    rwa [dechunk_of_ends hends]

/-! ### Termination -/

/-- One round of the loop, on its position and what is decoded so far. -/
def GoesOn (body : Bytes) (s s' : ℕ × Bytes) : Prop := chunkRound body s.1 s.2 = .goesOn s'.1 s'.2

/-- The position behind the chunk is not behind its size line's place. -/
def WrapsBack (pos : ℕ) (token : Bytes) (size : ℕ) : Prop :=
  2 ^ 64 ≤ pos + token.length + 2 + size ∧ token.length + 4 + size ≤ 2 ^ 64

instance : Decidable (WrapsBack pos token size) := inferInstanceAs (Decidable (_ ∧ _))

/-- The loop moves forward over a chunk exactly when its size does not wrap back. -/
theorem pos_lt_iff (hsize : body.length < maxSize) (hline : SizeAt body pos token size)
    (hfits : (pos + token.length + 2 + size) % sizeMod ≤ body.length) :
    pos < (pos + token.length + 2 + size + 2) % sizeMod ↔ ¬ WrapsBack pos token size := by
  have hlen := hline.length_le
  have hlt := chunkSize_lt hline.2.2
  rw [WrapsBack]
  rw [maxSize] at hsize
  rw [sizeMod] at hfits hlt ⊢
  omega

theorem goesOn_place {s s' : ℕ × Bytes} (hplace : ChunkPlace body s.1) (h : GoesOn body s s') :
    ChunkPlace body s'.1 := by
  obtain ⟨token, size, hline, hzero, hfits, hpos, -⟩ := chunkRound_eq_goesOn.mp h
  rw [hpos]
  exact .behind hplace hline hzero hfits

/-- The places are the positions of the rounds. -/
theorem chunkPlace_iff_goesOn : ChunkPlace body pos ↔
    ∃ decoded, Relation.ReflTransGen (GoesOn body) (0, []) (pos, decoded) := by
  constructor
  · intro h
    induction h with
    | start => exact ⟨[], .refl⟩
    | behind _ line nonzero fits ih =>
      obtain ⟨decoded, hrun⟩ := ih
      exact ⟨_, hrun.tail (chunkRound_eq_goesOn.mpr ⟨_, _, line, nonzero, fits, rfl, rfl⟩)⟩
  · rintro ⟨decoded, hrun⟩
    suffices h : ∀ s, Relation.ReflTransGen (GoesOn body) (0, []) s → ChunkPlace body s.1 from h _ hrun
    intro s hs
    induction hs with
    | refl => exact .start
    | tail _ hstep ih => exact goesOn_place ih hstep

/-- A loop that only moves forward ends. -/
theorem dechunkFrom_ends (hforward : ∀ s s', ChunkPlace body s.1 → GoesOn body s s' → s.1 < s'.1)
    (hplace : ChunkPlace body pos) (hrounds : body.length ≤ pos + rounds) :
    dechunkFrom body (rounds + 1) pos decoded ≠ .diverges := by
  induction rounds generalizing pos decoded with
  | zero =>
    rw [dechunkFrom, if_neg (by omega)]
    exact fun h => by cases h
  | succ rounds ih =>
    rw [dechunkFrom_succ]
    cases hround : chunkRound body pos decoded with
    | ends result =>
      rcases chunkRound_eq_ends hplace hround with rfl | ⟨-, rfl⟩ <;> exact fun h => by cases h
    | goesOn pos' decoded' =>
      have hstep : GoesOn body (pos, decoded) (pos', decoded') := hround
      have hlt := hforward _ _ hplace hstep
      exact ih (goesOn_place hplace hstep) (by simp only at hlt; omega)

/-- **When the loop ends, moving forward in every round**: no size line at one of its places declares a
size that wraps back. -/
theorem dechunk_terminates_iff (body : Bytes) (hsize : body.length < maxSize) :
    ((∃ rounds, dechunkFrom body rounds 0 [] ≠ .diverges) ∧
      ∀ s s', Relation.ReflTransGen (GoesOn body) (0, []) s → GoesOn body s s' → s.1 < s'.1) ↔
    ∀ pos token size, ChunkPlace body pos → SizeAt body pos token size →
      ¬ WrapsBack pos token size := by
  constructor
  · rintro ⟨-, hforward⟩ pos token size hplace hline hback
    have hlen := hline.length_le
    have hlt := chunkSize_lt hline.2.2
    have hwraps := hback
    rw [WrapsBack] at hwraps
    rw [maxSize] at hsize
    have hzero : size ≠ 0 := by omega
    have hfits : (pos + token.length + 2 + size) % sizeMod ≤ body.length := by
      rw [sizeMod] at hlt ⊢
      omega
    obtain ⟨decoded, hrun⟩ := chunkPlace_iff_goesOn.mp hplace
    have hstep := chunkRound_eq_goesOn.mpr
      ⟨token, size, hline, hzero, hfits, rfl, (rfl : decoded ++ _ = _)⟩
    exact (pos_lt_iff hsize hline hfits).mp (hforward (pos, decoded) (_, _) hrun hstep) hback
  · intro hnot
    have hforward : ∀ s s', ChunkPlace body s.1 → GoesOn body s s' → s.1 < s'.1 := by
      intro s s' hplace hstep
      obtain ⟨token, size, hline, -, hfits, hpos, -⟩ := chunkRound_eq_goesOn.mp hstep
      rw [hpos]
      exact (pos_lt_iff hsize hline hfits).mpr (hnot _ _ _ hplace hline)
    refine ⟨⟨body.length + 1, dechunkFrom_ends hforward .start (by omega)⟩, ?_⟩
    intro s s' hrun hstep
    exact hforward s s' (chunkPlace_iff_goesOn.mpr ⟨s.2, hrun⟩) hstep

section Witness

/-- One chunk and the last chunk. -/
def oneChunk : Bytes := str "1\r\nx\r\n0\r\n\r\n"

theorem oneChunk_first : SizeAt oneChunk 0 (str "1") 1 := by
  refine ⟨?_, ?_, ?_⟩ <;> decide

theorem oneChunk_last : SizeAt oneChunk 6 (str "0") 0 := by
  refine ⟨?_, ?_, ?_⟩ <;> decide

theorem oneChunk_place {pos : ℕ} (h : ChunkPlace oneChunk pos) : pos = 0 ∨ pos = 6 := by
  induction h with
  | start => exact .inl rfl
  | behind _ line nonzero _ ih =>
    rcases ih with rfl | rfl
    · obtain ⟨rfl, rfl⟩ := line.unique oneChunk_first
      exact .inr rfl
    · exact absurd (line.unique oneChunk_last).2 nonzero

theorem dechunk_terminates_one : (∃ rounds, dechunkFrom oneChunk rounds 0 [] ≠ .diverges) ∧
    ∀ s s', Relation.ReflTransGen (GoesOn oneChunk) (0, []) s → GoesOn oneChunk s s' → s.1 < s'.1 := by
  refine (dechunk_terminates_iff oneChunk (by decide)).mpr ?_
  intro pos token size hplace hline
  rcases oneChunk_place hplace with rfl | rfl
  · obtain ⟨rfl, rfl⟩ := hline.unique oneChunk_first
    decide
  · obtain ⟨rfl, rfl⟩ := hline.unique oneChunk_last
    decide

end Witness

/-- A chunk, and a size line whose negative size leads back to it. -/
def endlessBody : Bytes := str "1\r\nx\r\n-6\r\n"

/-- **The loop never ends**: `-6` is `2 ^ 64 - 6`, which passes the check of the length and adds nothing
to the position. -/
theorem dechunk_endless : (¬ ∃ rounds, dechunkFrom endlessBody rounds 0 [] ≠ .diverges) ∧
    parseHttpResponse (str "HTTP/1.1 200 OK\r\nTransfer-Encoding: chunked\r\n\r\n" ++ endlessBody) =
      .diverges := by
  refine ⟨?_, by decide +kernel⟩
  rintro ⟨rounds, h⟩
  apply h
  have hfirst : chunkRound endlessBody 0 [] = .goesOn 6 (str "x") := by decide
  have hstuck : chunkRound endlessBody 6 (str "x") = .goesOn 6 (str "x") := by decide
  have hloop : ∀ rounds, dechunkFrom endlessBody rounds 6 (str "x") = .diverges := by
    intro rounds
    induction rounds with
    | zero => rfl
    | succ rounds ih =>
      rw [dechunkFrom_succ, hstuck]
      exact ih
  cases rounds with
  | zero => rfl
  | succ rounds =>
    rw [dechunkFrom_succ, hfirst]
    exact hloop rounds

end KserveClient
