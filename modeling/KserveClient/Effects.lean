import KserveClient.GrpcClient
import KserveClient.HttpClient
import Mathlib.Logic.Function.Iterate

/-!
# KserveClient.Effects — what a request does to the server's state

A request that is sent again may take effect again: a response can be lost after the server has done its
work.  `Carries` says what one attempt may do, be it lost on the way there or on the way back.

* `runWithRetry_effects`: the retry loop lets the request take effect at most once an attempt, and if it
  ends in a success, then the last effect is the one that was answered.
* `HttpClient.sendRequest_effects`, `retryGrpc_effects`: the two loops of the clients.
-/

namespace KserveClient

open Outcome

/-! ### The retry loop as a channel -/

section Effects

variable {σ R S : Type} {policy : RetryPolicy} {attempt : σ → Outcome R × σ} {isRetryable : R → Bool}
  {sleeper : ℤ → σ → σ} {rng : σ → ℚ × σ} {store : σ → S} {f : S → S} {success : R → Prop}
  {Good : R → σ → S → Prop}

/-- What one attempt does to the server's state: nothing, and then it does not succeed, or `f`. -/
def Carries (store : σ → S) (f : S → S) (success : R → Prop) (Good : R → σ → S → Prop)
    (s : σ) (result : Outcome R × σ) : Prop :=
  store result.2 = store s ∧ (∀ r, result.1 = .ok r → ¬ success r) ∨
  store result.2 = f (store s) ∧ ∀ r, result.1 = .ok r → success r → Good r result.2 (store s)

/-- **The retry loop as a channel**: the effect of the request takes place at most once an attempt, and if
the loop ends in a success, the last effect is the one that it reports. -/
theorem runWithRetry_effects (hattempt : ∀ s, Carries store f success Good s (attempt s))
    (hbackoff : ∀ i s, store (backoff policy sleeper rng i s) = store s) (s : σ) :
    ∃ k ≤ policy.attempts,
      store (runWithRetry policy attempt isRetryable sleeper rng s).2 = f^[k] (store s) ∧
      ∀ r, (runWithRetry policy attempt isRetryable sleeper rng s).1 = .ok r → success r →
        ∃ j, k = j + 1 ∧
          Good r (runWithRetry policy attempt isRetryable sleeper rng s).2 (f^[j] (store s)) := by
  obtain ⟨n, -, hn, ⟨k, hk, hstore, hgood⟩, -⟩ := @runWithRetry_rule σ R policy attempt isRetryable sleeper
    rng (fun n t => ∃ k ≤ n, store t = f^[k] (store s))
    (fun n result => ∃ k ≤ n, store result.2 = f^[k] (store s) ∧ ∀ r, result.1 = .ok r → success r →
      ∃ j, k = j + 1 ∧ Good r result.2 (f^[j] (store s))) s ⟨0, le_rfl, rfl⟩ (by
      rintro n t ⟨k, hk, ht⟩
      rcases hattempt t with ⟨hsame, hnot⟩ | ⟨hdone, hgood⟩
      · have hstore : store (attempt t).2 = f^[k] (store s) := hsame.trans ht
        refine ⟨⟨k, hk.trans n.le_succ, hstore, fun r hr hs => absurd hs (hnot r hr)⟩, fun _ => ?_⟩
        exact ⟨k, hk.trans n.le_succ, (hbackoff _ _).trans hstore⟩
      · have hstore : store (attempt t).2 = f^[k + 1] (store s) := by
          rw [hdone, ht, Function.iterate_succ_apply']
        refine ⟨⟨k + 1, Nat.succ_le_succ hk, hstore, fun r hr hs => ⟨k, rfl, ?_⟩⟩, fun _ => ?_⟩
        · rw [← ht]
          exact hgood r hr hs
        · exact ⟨k + 1, Nat.succ_le_succ hk, (hbackoff _ _).trans hstore⟩)
  exact ⟨k, hk.trans hn, hstore, hgood⟩

end Effects

/-! ### The two transports -/

section Transports

variable {σ S : Type} {view : σ → S} {f : S → S}

/-- **A request over HTTP.** -/
theorem HttpClient.sendRequest_effects {env : HttpEnv σ} {client : HttpClient} {ep : Endpoint}
    {request : Bytes} {success : HttpResponse → Prop} {Good : HttpResponse → S → Prop}
    (hattempt : ∀ (conn : HttpConnection) s, Carries view f success (fun r _ before => Good r before) s
      ((roundTrip conn ep request (env.nextAttempt s).1).1, (env.nextAttempt s).2))
    (hsleep : ∀ ms s, view (env.sleep ms s) = view s) (hjitter : ∀ s, view (env.jitter s).2 = view s)
    (st : HttpConnection × σ) :
    ∃ k ≤ client.retryPolicy.attempts,
      view (client.sendRequest env ep request st).2.2 = f^[k] (view st.2) ∧
      ∀ r, (client.sendRequest env ep request st).1 = .ok r → success r →
        ∃ j, k = j + 1 ∧ Good r (f^[j] (view st.2)) := by
  rw [sendRequest]
  refine @runWithRetry_effects _ _ _ _ _ _ _ _ (fun t => view t.2) f success (fun r _ before => Good r before)
    ?_ ?_ st
  · intro t
    exact hattempt t.1 t.2
  · intro i t
    exact (hsleep _ _).trans (hjitter _)

/-- **A request over gRPC.** -/
theorem retryGrpc_effects {stub : GrpcStub σ} {client : GrpcClient} {ρ : Type}
    {call : σ → Outcome GrpcStatus × ρ × σ} {Good : ρ → S → Prop}
    (hcall : ∀ t : ρ × σ, Carries (fun t => view t.2) f (fun status => status.ok)
      (fun _ t before => Good t.1 before) t (call t.2))
    (hsleep : ∀ ms s, view (stub.sleep ms s) = view s) (hjitter : ∀ s, view (stub.jitter s).2 = view s)
    (response : ρ) (s : σ) :
    ∃ k ≤ client.retryPolicy.attempts,
      view (retryGrpc stub client call response s).2.2 = f^[k] (view s) ∧
      ∀ status, (retryGrpc stub client call response s).1 = .ok status → status.ok →
        ∃ j, k = j + 1 ∧ Good (retryGrpc stub client call response s).2.1 (f^[j] (view s)) := by
  rw [retryGrpc]
  refine @runWithRetry_effects _ GrpcStatus _ _ _ _ _ _ (fun t => view t.2) f (fun status => status.ok)
    (fun _ t before => Good t.1 before) ?_ ?_ (response, s)
  · intro t
    exact hcall t
  · intro i t
    exact (hsleep _ _).trans (hjitter _)

end Transports

end KserveClient
