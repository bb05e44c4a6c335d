import KserveClient.Outcome
import Mathlib.Algebra.Order.Ring.Rat
import Mathlib.Algebra.Order.Floor.Defs
import Mathlib.Data.Rat.Floor
import Mathlib.Data.List.Range
import Mathlib.Tactic.Linarith

/-!
# KserveClient.Retry — the retry policy and the retry loop

`backoffDelayMs` reads the `double` arithmetic of the source as exact rational arithmetic.
`runWithRetry` threads a state `σ` through the attempts, the random source and the sleeper; an attempt
that neither returns nor throws ends the loop with it.

`retryFrom_final` and `retryFrom_again` say what one round of the loop does.  `runWithRetry_run` is the
whole loop: if attempt `k` is the first final one, the state goes through `k` attempts with one backoff
between each two and the outcome is the one of attempt `k`.  `runWithRetry_recorded` is that run for a
fixed sequence of outcomes, with the complete list of the calls made.
-/

namespace KserveClient

structure RetryPolicy where
  maxAttempts : ℤ := 3
  baseDelayMs : ℤ := 100
  maxDelayMs : ℤ := 2000
  jitter : ℚ := 1 / 5

/-- `std::clamp(v, lo, hi)` -/
def clamp (v lo hi : ℚ) : ℚ := if v < lo then lo else if hi < v then hi else v

/-- `std::lround`: to nearest, halves away from zero. -/
def lround (x : ℚ) : ℤ := if 0 ≤ x then ⌊x + 1 / 2⌋ else -⌊-x + 1 / 2⌋

def backoffDelayMs (policy : RetryPolicy) (attempt : ℤ) (randUnit : ℚ) : ℤ :=
  if attempt < 1 then 0
  else
    let maxDelay : ℚ := policy.maxDelayMs
    -- exponential term, capped before applying jitter
    let expDelay : ℚ := min (policy.baseDelayMs * 2 ^ (attempt - 1).toNat) maxDelay
    let clampedUnit := clamp randUnit 0 1
    let factor := 1 - policy.jitter + clampedUnit * 2 * policy.jitter
    let jittered := clamp (expDelay * factor) 0 maxDelay
    lround jittered

example : backoffDelayMs {} 2 1 = 240 := by decide +kernel

def isRetryableHttpStatus (status : ℤ) : Bool :=
  status == 429 || status == 502 || status == 503 || status == 504

def isRetryableGrpcStatus (grpcStatusCode : ℤ) : Bool :=
  let kDeadlineExceeded := 4
  let kResourceExhausted := 8
  let kUnavailable := 14
  grpcStatusCode == kDeadlineExceeded || grpcStatusCode == kResourceExhausted ||
    grpcStatusCode == kUnavailable

/-! ### The loop -/

section Loop

variable {σ R : Type} (policy : RetryPolicy) (attempt : σ → Outcome R × σ)
  (isRetryable : R → Bool) (sleeper : ℤ → σ → σ) (rng : σ → ℚ × σ)

/-- `sleeper(backoffDelayMs(policy, i, rng()))` -/
def backoff (i : ℤ) (s : σ) : σ :=
  let (u, s) := rng s
  sleeper (backoffDelayMs policy i u) s

/-- The loop of `runWithRetry` from round `i` on. -/
def retryFrom (attempts i : ℤ) (s : σ) : Outcome R × σ :=
  match attempt s with
  | (.ok result, s') =>
    if attempts ≤ i ∨ isRetryable result = false then (.ok result, s')
    else retryFrom attempts (i + 1) (backoff policy sleeper rng i s')
  | (.throws e, s') =>
    if attempts ≤ i then (.throws e, s')
    else retryFrom attempts (i + 1) (backoff policy sleeper rng i s')
  | stuck => stuck
termination_by (attempts - i).toNat
decreasing_by all_goals omega

def runWithRetry (s : σ) : Outcome R × σ :=
  let attempts := if 0 < policy.maxAttempts then policy.maxAttempts else 1
  retryFrom policy attempt isRetryable sleeper rng attempts 1 s

/-- The number of attempts the policy allows. -/
def RetryPolicy.attempts : ℕ := if 0 < policy.maxAttempts then policy.maxAttempts.toNat else 1

/-- An outcome that ends the loop whatever attempts remain: a result not worth retrying, or a call
that never comes back. -/
def IsFinal : Outcome R → Bool
  | .ok result => !isRetryable result
  | .throws _ => false
  | _ => true

variable {policy attempt isRetryable sleeper rng}

theorem RetryPolicy.attempts_pos : 0 < policy.attempts := by
  unfold RetryPolicy.attempts
  split_ifs <;> omega

/-- The last round of the loop. -/
theorem retryFrom_final {attempts i : ℤ} {s : σ}
    (h : attempts ≤ i ∨ IsFinal isRetryable (attempt s).1) :
    retryFrom policy attempt isRetryable sleeper rng attempts i s = attempt s := by
  rw [retryFrom]
  rcases hs : attempt s with ⟨o, s'⟩
  rw [hs] at h
  cases o with
  | ok result => exact if_pos (h.imp_right fun h => by simpa [IsFinal] using h)
  | throws e => exact if_pos (h.resolve_right (by simp [IsFinal]))
  | undefined why => rfl
  | diverges => rfl
  | blocked => rfl

/-- Every other round. -/
theorem retryFrom_again {attempts i : ℤ} {s : σ} (hi : i < attempts)
    (h : IsFinal isRetryable (attempt s).1 = false) :
    retryFrom policy attempt isRetryable sleeper rng attempts i s =
      retryFrom policy attempt isRetryable sleeper rng attempts (i + 1)
        (backoff policy sleeper rng i (attempt s).2) := by
  rw [retryFrom]
  rcases hs : attempt s with ⟨o, s'⟩
  rw [hs] at h
  cases o with
  | ok result =>
    refine if_neg ?_
    rintro (hc | hc)
    · omega
    · simp [IsFinal, hc] at h
  | throws e => exact if_neg (by omega)
  | undefined why => simp [IsFinal] at h
  | diverges => simp [IsFinal] at h
  | blocked => simp [IsFinal] at h

variable (policy attempt sleeper rng) in
/-- The state in which attempt `n + 1` starts when the first `n` were not final. -/
def roundState (s : σ) : ℕ → σ
  | 0 => s
  | n + 1 => backoff policy sleeper rng (n + 1) (attempt (roundState s n)).2

/-- **The loop runs to the first final attempt**, or to the last one the policy allows. -/
theorem runWithRetry_run {s : σ} {n : ℕ} (hn : n < policy.attempts)
    (hagain : ∀ j < n,
      IsFinal isRetryable (attempt (roundState policy attempt sleeper rng s j)).1 = false)
    (hlast : n + 1 = policy.attempts ∨
      IsFinal isRetryable (attempt (roundState policy attempt sleeper rng s n)).1) :
    runWithRetry policy attempt isRetryable sleeper rng s
      = attempt (roundState policy attempt sleeper rng s n) := by
  have hN : (if 0 < policy.maxAttempts then policy.maxAttempts else 1) = policy.attempts := by
    unfold RetryPolicy.attempts
    split_ifs <;> omega
  -- the loop reaches round `j + 1` in the state `roundState j`
  have hreach : ∀ j ≤ n, runWithRetry policy attempt isRetryable sleeper rng s
      = retryFrom policy attempt isRetryable sleeper rng policy.attempts (j + 1)
        (roundState policy attempt sleeper rng s j) := by
    intro j hj
    induction j with
    | zero =>
      rw [runWithRetry, hN]
      rfl
    | succ j ih =>
      rw [ih (by omega), retryFrom_again (by omega) (hagain j (by omega))]
      push_cast
      rfl
  rw [hreach n le_rfl]
  exact retryFrom_final (hlast.imp_left fun h => by omega)

/-- A first attempt that is final is the only one. -/
theorem runWithRetry_first {s : σ} (h : IsFinal isRetryable (attempt s).1) :
    runWithRetry policy attempt isRetryable sleeper rng s = attempt s :=
  runWithRetry_run (n := 0) policy.attempts_pos (by simp) (Or.inr h)

/-- **A ghost state changes nothing**: a loop over a larger state does what the loop over the part `π`
of it does. -/
theorem retryFrom_map {τ : Type} {π : τ → σ} {attempt' : τ → Outcome R × τ} {sleeper' : ℤ → τ → τ}
    {rng' : τ → ℚ × τ} (hattempt : ∀ t, Prod.map id π (attempt' t) = attempt (π t))
    (hbackoff : ∀ i t, π (backoff policy sleeper' rng' i t) = backoff policy sleeper rng i (π t))
    (attempts i : ℤ) (t : τ) :
    Prod.map id π (retryFrom policy attempt' isRetryable sleeper' rng' attempts i t) =
      retryFrom policy attempt isRetryable sleeper rng attempts i (π t) := by
  have hone : ∀ t, (attempt (π t)).1 = (attempt' t).1 ∧ (attempt (π t)).2 = π (attempt' t).2 := by
    intro t
    rw [← hattempt]
    exact ⟨rfl, rfl⟩
  -- on the number of rounds that are left
  induction hn : (attempts - i).toNat generalizing i t with
  | zero =>
    rw [retryFrom_final (.inl (by omega)), retryFrom_final (.inl (by omega)), hattempt]
  | succ n ih =>
    cases hfinal : IsFinal isRetryable (attempt' t).1 with
    | true =>
      have hfinal' : IsFinal isRetryable (attempt (π t)).1 = true := by rw [(hone t).1, hfinal]
      rw [retryFrom_final (.inr hfinal), retryFrom_final (.inr hfinal'), hattempt]
    | false =>
      have hfinal' : IsFinal isRetryable (attempt (π t)).1 = false := by rw [(hone t).1, hfinal]
      rw [retryFrom_again (by omega) hfinal, ih _ _ (by omega), hbackoff,
        retryFrom_again (by omega) hfinal', (hone t).2]

theorem runWithRetry_map {τ : Type} {π : τ → σ} {attempt' : τ → Outcome R × τ} {sleeper' : ℤ → τ → τ}
    {rng' : τ → ℚ × τ} (hattempt : ∀ t, Prod.map id π (attempt' t) = attempt (π t))
    (hbackoff : ∀ i t, π (backoff policy sleeper' rng' i t) = backoff policy sleeper rng i (π t))
    (t : τ) : Prod.map id π (runWithRetry policy attempt' isRetryable sleeper' rng' t) =
      runWithRetry policy attempt isRetryable sleeper rng (π t) :=
  retryFrom_map hattempt hbackoff _ _ t

/-- **The rule of the retry loop**: what holds when an attempt begins, with the number of those before it,
and is kept by every round that is not the last, gives what one attempt gives, for the last one. -/
theorem runWithRetry_rule {P : ℕ → σ → Prop} {Q : ℕ → Outcome R × σ → Prop} {s : σ} (hs : P 0 s)
    (hround : ∀ n s, P n s → Q (n + 1) (attempt s) ∧
      (IsFinal isRetryable (attempt s).1 = false →
        P (n + 1) (backoff policy sleeper rng (n + 1) (attempt s).2))) :
    ∃ n, 0 < n ∧ n ≤ policy.attempts ∧ Q n (runWithRetry policy attempt isRetryable sleeper rng s) ∧
      (n = policy.attempts ∨ IsFinal isRetryable (runWithRetry policy attempt isRetryable sleeper rng s).1) := by
  have hN : (if 0 < policy.maxAttempts then policy.maxAttempts else 1) = policy.attempts := by
    unfold RetryPolicy.attempts
    split_ifs <;> omega
  have hpos := policy.attempts_pos
  -- on the number of attempts that are left behind the next one
  have hfrom : ∀ left n s, n + left + 1 = policy.attempts → P n s →
      ∃ m, 0 < m ∧ m ≤ policy.attempts ∧
        Q m (retryFrom policy attempt isRetryable sleeper rng policy.attempts (n + 1) s) ∧
        (m = policy.attempts ∨
          IsFinal isRetryable (retryFrom policy attempt isRetryable sleeper rng policy.attempts (n + 1) s).1) := by
    intro left
    induction left with
    | zero =>
      intro n s hn hP
      rw [retryFrom_final (.inl (by omega))]
      exact ⟨n + 1, by omega, by omega, (hround n s hP).1, .inl hn⟩
    | succ left ih =>
      intro n s hn hP
      cases hfinal : IsFinal isRetryable (attempt s).1 with
      | true =>
        rw [retryFrom_final (.inr hfinal)]
        exact ⟨n + 1, by omega, by omega, (hround n s hP).1, .inr hfinal⟩
      | false =>
        rw [retryFrom_again (by omega) hfinal]
        exact_mod_cast ih (n + 1) _ (by omega) ((hround n s hP).2 hfinal)
  rw [runWithRetry, hN]
  exact_mod_cast hfrom (policy.attempts - 1) 0 s (by omega) hs

end Loop

/-! ### The run on a fixed sequence of outcomes -/

section Recorded

/-- A call made by the loop. -/
inductive RetryCall where
  | attempt (i : ℕ)
  | rng (i : ℕ)
  | sleeper (ms : ℤ)
deriving DecidableEq

/-- The calls made so far, with their numbers. -/
structure RetryLog where
  attempts : ℕ := 0
  draws : ℕ := 0
  calls : List RetryCall := []
deriving DecidableEq

namespace RetryLog

variable {R : Type}

/-- The `i`-th attempt ends in `outcome i`: a result or an exception. -/
def attempt (outcome : ℕ → Except Exn R) (s : RetryLog) : Outcome R × RetryLog :=
  let i := s.attempts + 1
  (match outcome i with
    | .ok result => .ok result
    | .error e => .throws e,
  { s with attempts := i, calls := s.calls ++ [.attempt i] })

/-- The `i`-th draw gives `r i`. -/
def rng (r : ℕ → ℚ) (s : RetryLog) : ℚ × RetryLog :=
  let i := s.draws + 1
  (r i, { s with draws := i, calls := s.calls ++ [.rng i] })

def sleeper (ms : ℤ) (s : RetryLog) : RetryLog := { s with calls := s.calls ++ [.sleeper ms] }

end RetryLog

variable {R : Type} (policy : RetryPolicy) (outcome : ℕ → Except Exn R) (isRetryable : R → Bool)
  (r : ℕ → ℚ)

/-- Attempt `i` returns a result that is not retryable. -/
def endsAt (i : ℕ) : Bool :=
  match outcome i with
  | .ok result => !isRetryable result
  | .error _ => false

/-- The least attempt that returns a result that is not retryable, or the last one allowed. -/
def finalAttempt : ℕ :=
  ((List.range' 1 policy.attempts).find? (endsAt outcome isRetryable)).getD policy.attempts

/-- The calls of one attempt and of the wait after it. -/
def roundCalls (i : ℕ) : List RetryCall :=
  [.attempt i, .rng i, .sleeper (backoffDelayMs policy i (r i))]

theorem finalAttempt_spec :
    0 < finalAttempt policy outcome isRetryable ∧
    finalAttempt policy outcome isRetryable ≤ policy.attempts ∧
    (∀ i, 0 < i → i < finalAttempt policy outcome isRetryable →
      endsAt outcome isRetryable i = false) ∧
    (finalAttempt policy outcome isRetryable = policy.attempts ∨
      endsAt outcome isRetryable (finalAttempt policy outcome isRetryable)) := by
  have hpos := policy.attempts_pos
  cases h : (List.range' 1 policy.attempts).find? (endsAt outcome isRetryable) with
  | none =>
    have hk : finalAttempt policy outcome isRetryable = policy.attempts := by
      rw [finalAttempt, h, Option.getD_none]
    rw [List.find?_eq_none] at h
    refine ⟨by omega, by omega, fun i hi hlt => ?_, Or.inl hk⟩
    simpa using h i (List.mem_range'_1.mpr ⟨hi, by omega⟩)
  | some k =>
    have hk : finalAttempt policy outcome isRetryable = k := by
      rw [finalAttempt, h, Option.getD_some]
    rw [hk]
    obtain ⟨hend, hmem, hbefore⟩ := List.find?_range'_eq_some.mp h
    rw [List.mem_range'_1] at hmem
    refine ⟨by omega, by omega, fun i hi hlt => ?_, Or.inr hend⟩
    simpa using hbefore i hi hlt

variable {policy outcome r}

/-- The log before attempt `n + 1` when none of the first `n` was final. -/
theorem roundState_recorded (n : ℕ) :
    roundState policy (RetryLog.attempt outcome) RetryLog.sleeper (RetryLog.rng r) {} n =
      ⟨n, n, (List.range' 1 n).flatMap (roundCalls policy r)⟩ := by
  induction n with
  | zero => rfl
  | succ n ih =>
    rw [roundState, ih, List.range'_1_concat, List.flatMap_append]
    simp [backoff, RetryLog.attempt, RetryLog.rng, RetryLog.sleeper, roundCalls, Nat.add_comm 1 n]

theorem isFinal_attempt (isRetryable : R → Bool) (s : RetryLog) :
    IsFinal isRetryable (RetryLog.attempt outcome s).1 = endsAt outcome isRetryable (s.attempts + 1) := by
  simp only [RetryLog.attempt, endsAt]
  cases outcome (s.attempts + 1) <;> rfl

/-- **The retry loop**: with `k` the final attempt, exactly `k` attempts are made, the outcome is the
one of attempt `k`, and between attempts `i` and `i + 1` there is one draw `r i` and one sleep of
`backoffDelayMs policy i (r i)`; nothing follows attempt `k`. -/
theorem runWithRetry_recorded (policy : RetryPolicy) (outcome : ℕ → Except Exn R)
    (isRetryable : R → Bool) (r : ℕ → ℚ) :
    let k := finalAttempt policy outcome isRetryable
    runWithRetry policy (RetryLog.attempt outcome) isRetryable RetryLog.sleeper (RetryLog.rng r) {} =
      (match outcome k with
        | .ok result => .ok result
        | .error e => .throws e,
      { attempts := k, draws := k - 1,
        calls := (List.range' 1 (k - 1)).flatMap (roundCalls policy r) ++ [.attempt k] }) := by
  intro k
  obtain ⟨hpos, hle, hbefore, hlast⟩ := finalAttempt_spec policy outcome isRetryable
  have hk : k - 1 + 1 = k := Nat.sub_add_cancel hpos
  have hfinal : ∀ j, IsFinal isRetryable (RetryLog.attempt outcome (roundState policy
      (RetryLog.attempt outcome) RetryLog.sleeper (RetryLog.rng r) {} j)).1
        = endsAt outcome isRetryable (j + 1) := by
    intro j
    rw [roundState_recorded, isFinal_attempt]
  rw [runWithRetry_run (n := k - 1) (by omega)]
  · rw [roundState_recorded]
    simp only [RetryLog.attempt, hk]
  · intro j hj
    rw [hfinal]
    exact hbefore (j + 1) (by omega) (by omega)
  · rw [hfinal, hk]
    exact hlast

end Recorded

end KserveClient
