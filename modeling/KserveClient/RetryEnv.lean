import KserveClient.Retry
import KserveClient.Scalar
import KserveClient.Lib.FloatRat
import KserveClient.Lib.RealText

/-!
# KserveClient.RetryEnv — the retry policy of the environment

`retryPolicyFromEnv` reads the four variables through `std::stoi` and `std::stod`; an `int` addition that
overflows has no result.  A policy `Makes` a number of attempts if every run on an operation that keeps
failing transiently does.

* `makes_attempts`: a policy makes as many attempts as it allows.
* `retryPolicyFromEnv_iff`: only `INT_MAX` retries keep the environment from giving a sound policy.
-/

namespace KserveClient

open BinaryFloat

/-! ### The numbers of the standard library -/

/-- What `std::stoi` returns, from the integer at the start of the text. -/
theorem stoi_eq_ok_iff {s : Bytes} {v : ℤ} : stoi s = .ok v ↔
    ∃ neg n, Numeral.readInt 10 s = some (neg, n) ∧ v = (if neg then -(n : ℤ) else n) ∧
      -2 ^ 31 ≤ v ∧ v < 2 ^ 31 := by
  unfold stoi
  cases hread : Numeral.readInt 10 s with
  | none =>
    refine iff_of_false (fun h => by cases h) ?_
    rintro ⟨neg, n, h, -⟩
    cases h
  | some r =>
    obtain ⟨neg, n⟩ := r
    dsimp only
    constructor
    · intro h
      by_cases hrange : -2 ^ 31 ≤ (if neg then -(n : ℤ) else n) ∧ (if neg then -(n : ℤ) else n) < 2 ^ 31
      · rw [if_pos hrange] at h
        cases h
        exact ⟨neg, n, rfl, rfl, hrange⟩
      · rw [if_neg hrange] at h
        cases h
    · rintro ⟨neg', n', heq, rfl, hrange⟩
      cases heq
      exact if_pos hrange

theorem stoi_lt {s : Bytes} {v : ℤ} (h : stoi s = .ok v) : v < 2 ^ 31 := by
  obtain ⟨-, -, -, -, -, hlt⟩ := stoi_eq_ok_iff.mp h
  exact hlt

/-- The texts of the largest `int`. -/
theorem stoi_max {s : Bytes} :
    stoi s = .ok (2 ^ 31 - 1) ↔ Numeral.readInt 10 s = some (false, 2 ^ 31 - 1) := by
  rw [stoi_eq_ok_iff]
  constructor
  · rintro ⟨neg, n, hread, hvalue, -, -⟩
    cases neg with
    | true =>
      rw [if_pos rfl] at hvalue
      omega
    | false =>
      rw [if_neg Bool.false_ne_true] at hvalue
      rw [hread, show n = 2 ^ 31 - 1 by omega]
  · intro hread
    refine ⟨false, 2 ^ 31 - 1, hread, ?_, ?_, ?_⟩
    · rw [if_neg Bool.false_ne_true]
      norm_num
    · norm_num
    · norm_num

/-- The quiet NaN that `strtod` gives for `nan`. -/
theorem quietNaN_lt : binary64.infBits + 2 ^ (binary64.mbits - 1) < binary64.signUnit := by decide

/-- `std::stod(s)`: out of range when the number overflows, or when it falls below the normal numbers and
is not exact there. -/
def stod (s : Bytes) : Outcome F64 :=
  match Numeral.readReal s with
  | none => .throws (.invalidArgument "stod")
  | some (neg, .infinite) => .ok ⟨neg, binary64.infBits, binary64.infBits_lt⟩
  | some (neg, .nan) => .ok ⟨neg, binary64.infBits + 2 ^ (binary64.mbits - 1), quietNaN_lt⟩
  | some (neg, .ratio n d) =>
    let p := nearestRatio binary64 n d
    if h : p < binary64.infBits then
      if p < 2 ^ binary64.mbits ∧ n * 2 ^ binary64.unit ≠ mag binary64 p * d then
        .throws (.outOfRange "stod")
      else .ok ⟨neg, p, h.trans binary64.infBits_lt⟩
    else .throws (.outOfRange "stod")

example : Value.toBits <$> stod (str " +2.5e-1x") = .ok 0x3FD0000000000000 := by decide +kernel

/-- The text of a `double` is read as that `double`. -/
theorem stod_exact {s : Bytes} {n d : ℕ} {x : F64} (hx : x.IsFinite)
    (hs : Numeral.readReal s = some (x.neg, .ratio n d))
    (hn : n * 2 ^ binary64.unit = mag binary64 x.pat * d) : stod s = .ok x := by
  have hp := nearestRatio_exact (f := binary64) (Numeral.readReal_pos hs) hn
  have hlt : nearestRatio binary64 n d < binary64.infBits := by
    rw [hp]
    exact hx
  have hnormal : ¬ (nearestRatio binary64 n d < 2 ^ binary64.mbits ∧
      n * 2 ^ binary64.unit ≠ mag binary64 (nearestRatio binary64 n d) * d) := by
    rw [hp]
    exact fun h => h.2 hn
  have hvalue : ∀ p (h : p < binary64.signUnit), p = x.pat → (⟨x.neg, p, h⟩ : F64) = x := by
    rintro p h rfl
    rfl
  unfold stod
  rw [hs]
  exact (dif_pos hlt).trans ((if_neg hnormal).trans (congrArg Outcome.ok (hvalue _ _ hp)))

/-- Addition of two `int`s: no result when it overflows. -/
def addInt (a b : ℤ) : Option ℤ := if -2 ^ 31 ≤ a + b ∧ a + b < 2 ^ 31 then some (a + b) else none

/-! ### Reading the environment -/

section Source

variable (getenv : Bytes → Option Bytes)

def envInt (name : Bytes) (fallback : ℤ) : ℤ :=
  match getenv name with
  | none => fallback
  | some raw =>
    match stoi raw with
    | .ok value => if 0 < value then value else fallback
    | _ => fallback

/-- No infinity and no NaN lies in `[0, 1]`. -/
def envFraction (name : Bytes) (fallback : ℚ) : ℚ :=
  match getenv name with
  | none => fallback
  | some raw =>
    match stod raw with
    | .ok value =>
      if value.IsFinite ∧ 0 ≤ value.toRat ∧ value.toRat ≤ 1 then value.toRat else fallback
    | _ => fallback

def envAttempts (fallback : ℤ) : Option ℤ :=
  match getenv (str "KSERVE_MAX_RETRIES") with
  | none => some fallback
  | some raw =>
    match stoi raw with
    | .ok retries => if 0 ≤ retries then addInt retries 1 else some fallback
    | _ => some fallback

/-- No result when the number of attempts overflows. -/
def retryPolicyFromEnv : Option RetryPolicy :=
  let policy : RetryPolicy := {}
  (envAttempts getenv policy.maxAttempts).map fun maxAttempts => {
    maxAttempts := maxAttempts
    baseDelayMs := envInt getenv (str "KSERVE_RETRY_BASE_MS") policy.baseDelayMs
    maxDelayMs := envInt getenv (str "KSERVE_RETRY_MAX_MS") policy.maxDelayMs
    jitter := envFraction getenv (str "KSERVE_RETRY_JITTER") policy.jitter }

end Source

/-- The bounds that the retry loop and its delays rely on. -/
structure RetryPolicy.WellFormed (policy : RetryPolicy) : Prop where
  maxAttempts : 1 ≤ policy.maxAttempts
  baseDelayMs : 1 ≤ policy.baseDelayMs
  maxDelayMs : 1 ≤ policy.maxDelayMs
  jitter : 0 ≤ policy.jitter ∧ policy.jitter ≤ 1

/-- On an operation that keeps failing transiently the loop makes `n` attempts. -/
def RetryPolicy.Makes (policy : RetryPolicy) (n : ℤ) : Prop :=
  ∀ (R : Type) (outcome : ℕ → Except Exn R) (isRetryable : R → Bool) (r : ℕ → ℚ),
    (∀ i, endsAt outcome isRetryable i = false) →
    ((runWithRetry policy (RetryLog.attempt outcome) isRetryable RetryLog.sleeper (RetryLog.rng r)
      {}).2.attempts : ℤ) = n

/-- What is asked of the environment: a sound policy, with one attempt more than the retries named. -/
def SoundEnv (getenv : Bytes → Option Bytes) : Prop :=
  ∃ policy, retryPolicyFromEnv getenv = some policy ∧ policy.WellFormed ∧
    ∀ raw retries, getenv (str "KSERVE_MAX_RETRIES") = some raw → stoi raw = .ok retries →
      0 ≤ retries → policy.Makes (retries + 1)

/-! ### The fields of the policy -/

section Fields

variable (getenv : Bytes → Option Bytes) (name : Bytes)

theorem envInt_pos {fallback : ℤ} (h : 1 ≤ fallback) : 1 ≤ envInt getenv name fallback := by
  unfold envInt
  cases getenv name with
  | none => exact h
  | some raw =>
    dsimp only
    rcases stoi_cases raw with ⟨value, hvalue⟩ | ⟨e, he, -⟩
    · rw [hvalue]
      dsimp only
      split_ifs with hpos
      · exact hpos
      · exact h
    · rw [he]
      exact h

theorem envFraction_mem {fallback : ℚ} (h : 0 ≤ fallback ∧ fallback ≤ 1) :
    0 ≤ envFraction getenv name fallback ∧ envFraction getenv name fallback ≤ 1 := by
  unfold envFraction
  cases getenv name with
  | none => exact h
  | some raw =>
    dsimp only
    cases stod raw with
    | ok value =>
      dsimp only
      split_ifs with hmem
      · exact hmem.2
      · exact h
    | _ => exact h

/-- Only the largest `int` cannot be counted up by one. -/
theorem addInt_one {retries : ℤ} (hlo : 0 ≤ retries) (hhi : retries < 2 ^ 31)
    (hmax : retries ≠ 2 ^ 31 - 1) : addInt retries 1 = some (retries + 1) :=
  if_pos (by omega)

/-- The retries that the environment names. -/
def NamesRetries (retries : ℤ) : Prop :=
  ∃ raw, getenv (str "KSERVE_MAX_RETRIES") = some raw ∧ stoi raw = .ok retries

variable {getenv}

theorem NamesRetries.unique {m n : ℤ} (hm : NamesRetries getenv m) (hn : NamesRetries getenv n) :
    m = n := by
  obtain ⟨raw, hraw, hm⟩ := hm
  obtain ⟨raw', hraw', hn⟩ := hn
  rw [hraw] at hraw'
  cases hraw'
  rw [hm] at hn
  cases hn
  rfl

theorem envAttempts_named {fallback retries : ℤ} (h : NamesRetries getenv retries) :
    envAttempts getenv fallback = if 0 ≤ retries then addInt retries 1 else some fallback := by
  obtain ⟨raw, hraw, hstoi⟩ := h
  unfold envAttempts
  rw [hraw]
  dsimp only
  rw [hstoi]

theorem envAttempts_default {fallback : ℤ} (h : ¬ ∃ retries, NamesRetries getenv retries) :
    envAttempts getenv fallback = some fallback := by
  unfold envAttempts
  cases hraw : getenv (str "KSERVE_MAX_RETRIES") with
  | none => rfl
  | some raw =>
    dsimp only
    rcases stoi_cases raw with ⟨retries, hstoi⟩ | ⟨e, he, -⟩
    · exact absurd ⟨retries, raw, hraw, hstoi⟩ h
    · rw [he]

/-- The attempts of the environment: one more than the retries named, or the default. -/
theorem envAttempts_spec {fallback : ℤ} (h : 1 ≤ fallback) (hmax : ¬ NamesRetries getenv (2 ^ 31 - 1)) :
    ∃ n, envAttempts getenv fallback = some n ∧ 1 ≤ n ∧
      ∀ retries, NamesRetries getenv retries → 0 ≤ retries → n = retries + 1 := by
  by_cases hsome : ∃ retries, NamesRetries getenv retries
  · obtain ⟨retries, hnamed⟩ := hsome
    rw [envAttempts_named hnamed]
    by_cases hneg : 0 ≤ retries
    · have hlt : retries < 2 ^ 31 := by
        obtain ⟨raw, -, hstoi⟩ := hnamed
        exact stoi_lt hstoi
      have hne : retries ≠ 2 ^ 31 - 1 := fun heq => hmax (heq ▸ hnamed)
      rw [if_pos hneg, addInt_one hneg hlt hne]
      refine ⟨retries + 1, rfl, by omega, fun retries' hnamed' _ => ?_⟩
      rw [hnamed.unique hnamed']
    · rw [if_neg hneg]
      refine ⟨fallback, rfl, h, fun retries' hnamed' hpos => ?_⟩
      rw [← hnamed.unique hnamed'] at hpos
      exact absurd hpos hneg
  · exact ⟨fallback, envAttempts_default hsome, h, fun retries hnamed => absurd ⟨retries, hnamed⟩ hsome⟩

end Fields

/-! ### The runs under the policy -/

/-- **All attempts are used up** when every one fails transiently. -/
theorem makes_attempts (policy : RetryPolicy) : policy.Makes policy.attempts := by
  intro R outcome isRetryable r hagain
  have hpos := policy.attempts_pos
  have hfinal : ∀ s, IsFinal isRetryable (RetryLog.attempt outcome s).1 = false := by
    intro s
    rw [isFinal_attempt, hagain]
  rw [runWithRetry_run (n := policy.attempts - 1) (by omega) (fun j _ => hfinal _) (.inl (by omega)),
    roundState_recorded]
  show ((policy.attempts - 1 + 1 : ℕ) : ℤ) = policy.attempts
  rw [Nat.sub_add_cancel hpos]

theorem makes_maxAttempts {policy : RetryPolicy} (h : 1 ≤ policy.maxAttempts) :
    policy.Makes policy.maxAttempts := by
  have hattempts : (policy.attempts : ℤ) = policy.maxAttempts := by
    rw [RetryPolicy.attempts, if_pos (by omega)]
    omega
  rw [← hattempts]
  exact makes_attempts policy

/-- **Every environment gives a sound policy**, except one that asks for the largest `int` of retries:
there the number of attempts overflows. -/
theorem retryPolicyFromEnv_iff (getenv : Bytes → Option Bytes) :
    SoundEnv getenv ↔ ∀ raw, getenv (str "KSERVE_MAX_RETRIES") = some raw →
      Numeral.readInt 10 raw ≠ some (false, 2 ^ 31 - 1) := by
  constructor
  · rintro ⟨policy, hpolicy, -, -⟩ raw hraw hread
    have hoverflow : envAttempts getenv 3 = none := by
      rw [envAttempts_named ⟨raw, hraw, stoi_max.mpr hread⟩]
      rfl
    obtain ⟨n, hn, -⟩ := Option.map_eq_some_iff.mp hpolicy
    rw [hoverflow] at hn
    cases hn
  · intro hmax
    have hnot : ¬ NamesRetries getenv (2 ^ 31 - 1) := by
      rintro ⟨raw, hraw, hstoi⟩
      exact hmax raw hraw (stoi_max.mp hstoi)
    obtain ⟨n, hn, hpos, hnamed⟩ := @envAttempts_spec getenv 3 (by omega) hnot
    refine ⟨_, Option.map_eq_some_iff.mpr ⟨n, hn, rfl⟩, ⟨hpos, ?_, ?_, ?_⟩, ?_⟩
    · exact envInt_pos getenv _ (by norm_num)
    · exact envInt_pos getenv _ (by norm_num)
    · exact envFraction_mem getenv _ (by norm_num)
    · intro raw retries hraw hstoi hretries
      rw [← hnamed retries ⟨raw, hraw, hstoi⟩ hretries]
      exact makes_maxAttempts hpos

/-- An environment that asks for the largest `int` of retries. -/
def largestEnv (name : Bytes) : Option Bytes :=
  if name = str "KSERVE_MAX_RETRIES" then some (str "2147483647") else none

/-- With `2147483647` retries the number of attempts overflows. -/
theorem retryPolicyFromEnv_overflow :
    retryPolicyFromEnv largestEnv = none ∧ ¬ SoundEnv largestEnv := by
  have hattempts : envAttempts largestEnv 3 = none := by decide
  have hnone : retryPolicyFromEnv largestEnv = none := by
    unfold retryPolicyFromEnv
    dsimp only
    rw [hattempts]
    rfl
  refine ⟨hnone, fun hsound => ?_⟩
  obtain ⟨policy, hpolicy, -⟩ := hsound
  rw [hnone] at hpolicy
  cases hpolicy

end KserveClient
