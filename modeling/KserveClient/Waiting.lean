import KserveClient.Backoff
import KserveClient.RetryEnv

/-!
# KserveClient.Waiting — how long an operation waits between its attempts

A ledger of the attempts made and of the time slept is kept along the retry loop, whatever the attempts, the
random source and the answers are.

* `retryPolicyFromEnv_wellFormed`: the policy of an environment, when there is one.
* `runWithRetry_ledger`: the loop sleeps once between two attempts, each time within the schedule.
* `runWithRetry_waits`: under the policy of any environment, the bounds on the whole wait.
-/

namespace KserveClient

/-! ### The policy -/

/-- An environment that gives a policy at all gives a sound one. -/
theorem retryPolicyFromEnv_wellFormed {getenv : Bytes → Option Bytes} {policy : RetryPolicy}
    (h : retryPolicyFromEnv getenv = some policy) : policy.WellFormed := by
  obtain ⟨n, hn, rfl⟩ := Option.map_eq_some_iff.mp h
  have hmax : ¬ NamesRetries getenv (2 ^ 31 - 1) := by
    intro hnamed
    rw [envAttempts_named hnamed] at hn
    cases hn
  obtain ⟨m, hm, hpos, -⟩ := @envAttempts_spec getenv 3 (by omega) hmax
  obtain rfl : m = n := Option.some.inj (hm.symm.trans hn)
  refine ⟨hpos, ?_, ?_, ?_⟩
  · exact envInt_pos getenv _ (by norm_num)
  · exact envInt_pos getenv _ (by norm_num)
  · exact envFraction_mem getenv _ (by norm_num)

/-! ### The schedule, summed up -/

section Schedule

variable {policy : RetryPolicy}

/-- The longest wait in `n` pauses. -/
def longestWait (policy : RetryPolicy) : ℕ → ℤ
  | 0 => 0
  | n + 1 => longestWait policy n + backoffDelayMs policy (n + 1) 1

variable {a : ℤ}

/-- No unit gives a longer delay than `1`. -/
theorem backoffDelayMs_le_one (h : policy.WellFormed) (ha : 1 ≤ a) (u : ℚ) :
    backoffDelayMs policy a u ≤ backoffDelayMs policy a 1 := by
  rcases le_total u 1 with hu | hu
  · exact backoffDelayMs_mono_unit h.baseDelayMs h.maxDelayMs h.jitter.1 h.jitter.2 ha hu
  · refine (backoffDelayMs_clamp ha ?_).le
    rw [clamp_of_ge hu zero_le_one, clamp_of_ge le_rfl zero_le_one]

/-- A delay is at most twice the exponential term. -/
theorem backoffDelayMs_le_double (h : policy.WellFormed) (ha : 1 ≤ a) (u : ℚ) :
    backoffDelayMs policy a u ≤ 2 * policy.baseDelayMs * 2 ^ (a - 1).toNat := by
  have hbase : 0 < policy.baseDelayMs := h.baseDelayMs
  have hmax : 0 < policy.maxDelayMs := h.maxDelayMs
  have hexp : (0 : ℚ) ≤ expDelay policy a := by exact_mod_cast (expDelay_pos hbase hmax).le
  have hterm : expDelay policy a ≤ policy.baseDelayMs * 2 ^ (a - 1).toNat := min_le_left _ _
  have hfactor : (1 + policy.jitter) * expDelay policy a ≤ ((2 * expDelay policy a : ℤ) : ℚ) := by
    push_cast
    exact mul_le_mul_of_nonneg_right (by linarith [h.jitter.2]) hexp
  calc backoffDelayMs policy a u
      ≤ lround (min ((1 + policy.jitter) * expDelay policy a) policy.maxDelayMs) :=
        (backoffDelayMs_band hbase hmax h.jitter.1 h.jitter.2 ha).2
    _ ≤ lround ((2 * expDelay policy a : ℤ) : ℚ) := lround_mono ((min_le_left _ _).trans hfactor)
    _ = 2 * expDelay policy a := lround_intCast _
    _ ≤ 2 * policy.baseDelayMs * 2 ^ (a - 1).toNat := by linarith

/-- The whole wait stays below the cap for each pause, and below the doubled series. -/
theorem longestWait_le (h : policy.WellFormed) (n : ℕ) :
    longestWait policy n ≤ n * policy.maxDelayMs ∧
      longestWait policy n ≤ 2 * policy.baseDelayMs * (2 ^ n - 1) := by
  induction n with
  | zero => simp [longestWait]
  | succ n ih =>
    obtain ⟨hcap, hseries⟩ := ih
    have hdelay := (@backoffDelayMs_mem policy (n + 1) 1 h.maxDelayMs (by omega)).2
    have hdouble := @backoffDelayMs_le_double policy (n + 1) h (by omega) 1
    rw [show ((n : ℤ) + 1 - 1).toNat = n by omega] at hdouble
    rw [longestWait, pow_succ]
    push_cast
    constructor <;> linarith

end Schedule

/-! ### The ledger -/

section Ledger

variable {σ R : Type} {policy : RetryPolicy} {attempt : σ → Outcome R × σ} {isRetryable : R → Bool}
  {sleeper : ℤ → σ → σ} {rng : σ → ℚ × σ} {ledger : σ → ℕ × ℤ}

/-- **The ledger of a run**: `n` attempts, and a wait of at most the longest one in the pauses between them. -/
theorem runWithRetry_ledger (h : policy.WellFormed)
    (hattempt : ∀ s, ledger (attempt s).2 = ((ledger s).1 + 1, (ledger s).2))
    (hrng : ∀ s, ledger (rng s).2 = ledger s)
    (hsleeper : ∀ ms s, ledger (sleeper ms s) = ((ledger s).1, (ledger s).2 + ms)) (s : σ) :
    ∃ n, 0 < n ∧ n ≤ policy.attempts ∧
      (ledger (runWithRetry policy attempt isRetryable sleeper rng s).2).1 = (ledger s).1 + n ∧
      (ledger s).2 ≤ (ledger (runWithRetry policy attempt isRetryable sleeper rng s).2).2 ∧
      (ledger (runWithRetry policy attempt isRetryable sleeper rng s).2).2 ≤
        (ledger s).2 + longestWait policy (n - 1) := by
  obtain ⟨n, hpos, hn, hledger, -⟩ := @runWithRetry_rule σ R policy attempt isRetryable sleeper rng
    (fun n t => (ledger t).1 = (ledger s).1 + n ∧ (ledger s).2 ≤ (ledger t).2 ∧
      (ledger t).2 ≤ (ledger s).2 + longestWait policy n)
    (fun n result => (ledger result.2).1 = (ledger s).1 + n ∧ (ledger s).2 ≤ (ledger result.2).2 ∧
      (ledger result.2).2 ≤ (ledger s).2 + longestWait policy (n - 1)) s
    ⟨rfl, le_rfl, by simp [longestWait]⟩ (by
      rintro n t ⟨hcount, hlow, hhigh⟩
      have hone := hattempt t
      refine ⟨?_, fun _ => ?_⟩
      · rw [hone, Nat.add_sub_cancel]
        exact ⟨by rw [hcount, Nat.add_assoc], hlow, hhigh⟩
      · have hstep : ledger (backoff policy sleeper rng (n + 1) (attempt t).2) = ((ledger t).1 + 1,
            (ledger t).2 + backoffDelayMs policy (n + 1) (rng (attempt t).2).1) := by
          rw [backoff, hsleeper, hrng, hone]
        have hnonneg := (@backoffDelayMs_mem policy (n + 1) (rng (attempt t).2).1 h.maxDelayMs (by omega)).1
        have hmost := @backoffDelayMs_le_one policy (n + 1) h (by omega) (rng (attempt t).2).1
        rw [hstep, longestWait]
        exact ⟨by rw [hcount, Nat.add_assoc], by linarith, by linarith⟩)
  exact ⟨n, hpos, hn, hledger⟩

/-- **Bounded waiting**: under the policy of any environment, an operation that makes `n` attempts, at most as
many as the policy allows, sleeps for at most `n - 1` times the cap and for at most twice the doubling series
of its base, whatever the attempts, their answers and the random source are. -/
theorem runWithRetry_waits {getenv : Bytes → Option Bytes} (hpolicy : retryPolicyFromEnv getenv = some policy)
    (hattempt : ∀ s, ledger (attempt s).2 = ((ledger s).1 + 1, (ledger s).2))
    (hrng : ∀ s, ledger (rng s).2 = ledger s)
    (hsleeper : ∀ ms s, ledger (sleeper ms s) = ((ledger s).1, (ledger s).2 + ms)) (s : σ) :
    ∃ n slept, 0 < n ∧ n ≤ policy.attempts ∧
      ledger (runWithRetry policy attempt isRetryable sleeper rng s).2 = ((ledger s).1 + n, (ledger s).2 + slept) ∧
      0 ≤ slept ∧ slept ≤ (n - 1) * policy.maxDelayMs ∧
      slept ≤ 2 * policy.baseDelayMs * (2 ^ (n - 1) - 1) := by
  have h := retryPolicyFromEnv_wellFormed hpolicy
  obtain ⟨n, hpos, hn, hcount, hlow, hhigh⟩ :=
    @runWithRetry_ledger σ R policy attempt isRetryable sleeper rng ledger h hattempt hrng hsleeper s
  obtain ⟨hcap, hseries⟩ := longestWait_le h (n - 1)
  rw [Nat.cast_sub hpos, Nat.cast_one] at hcap
  refine ⟨n, (ledger (runWithRetry policy attempt isRetryable sleeper rng s).2).2 - (ledger s).2, hpos, hn,
    ?_, by linarith, by linarith, by linarith⟩
  ext
  · exact hcount
  · show _ = (ledger s).2 + (_ - (ledger s).2)
    ring

/-- An attempt on a server that is never available. -/
def unavailable (s : ℕ × ℤ) : Outcome ℤ × ℕ × ℤ := (.ok 503, s.1 + 1, s.2)

/-- Three attempts at most, with no variable set. -/
theorem runWithRetry_waits_default : ∃ (n : ℕ) (slept : ℤ), 0 < n ∧ n ≤ 3 ∧
    (runWithRetry {} unavailable isRetryableHttpStatus (fun ms s => (s.1, s.2 + ms)) (fun s => (1 / 2, s))
      (0, 0)).2 = (0 + n, 0 + slept) ∧
    0 ≤ slept ∧ slept ≤ ((n : ℤ) - 1) * 2000 ∧ slept ≤ 2 * 100 * (2 ^ (n - 1) - 1) :=
  @runWithRetry_waits (ℕ × ℤ) ℤ {} unavailable isRetryableHttpStatus (fun ms s => (s.1, s.2 + ms))
    (fun s => (1 / 2, s)) id (fun _ => none) rfl (fun _ => rfl) (fun _ => rfl) (fun _ _ => rfl) (0, 0)

end Ledger

end KserveClient
