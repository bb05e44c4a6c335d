import Mathlib.Computability.StateTransition
import Mathlib.Data.Finset.Card

/-!
# Loop — counting the steps of a partial step function

`after next k a` is the state `k` steps behind `a`, when the loop takes that many.  A loop that ends has
been nowhere twice (`after_injOn`), so the number of its steps is bounded by the number of states that
have a next one (`le_card`): a bound for the fuel of a loop whose states are known.
-/

namespace Loop

open StateTransition

variable {α : Type*}

def after (next : α → Option α) : ℕ → α → Option α
  | 0, a => some a
  | k + 1, a => (next a).bind (after next k)

variable {next : α → Option α} {a b : α} {i j k : ℕ}

theorem after_add : after next (j + k) a = (after next j a).bind (after next k) := by
  induction j generalizing a with
  | zero => rw [Nat.zero_add, after, Option.bind_some]
  | succ j ih =>
    rw [Nat.succ_add, after, after, Option.bind_assoc]
    exact congrArg _ (funext fun _ => ih)

theorem reaches_iff : Reaches next a b ↔ ∃ k, after next k a = some b := by
  constructor
  · intro h
    induction h using Relation.ReflTransGen.head_induction_on with
    | refl => exact ⟨0, rfl⟩
    | head hstep _ ih =>
      obtain ⟨k, hk⟩ := ih
      exact ⟨k + 1, by rw [after, hstep, Option.bind_some, hk]⟩
  · rintro ⟨k, h⟩
    induction k generalizing a with
    | zero =>
      cases h
      exact .refl
    | succ k ih =>
      obtain ⟨c, hc, hk⟩ := Option.bind_eq_some_iff.mp h
      exact .head hc (ih hk)

/-- The states before the last one. -/
theorem exists_after (h : after next k a = some b) (hj : j ≤ k) :
    ∃ c, after next j a = some c ∧ after next (k - j) c = some b := by
  rw [← Nat.add_sub_cancel' hj, after_add] at h
  exact Option.bind_eq_some_iff.mp h

/-- **A loop that ends comes nowhere twice.** -/
theorem after_injOn (h : after next k a = some b) (hb : next b = none) (hij : i < j) (hj : j ≤ k) :
    after next i a ≠ after next j a := by
  intro heq
  obtain ⟨c, hc, hend⟩ := exists_after h hj
  -- from `i` on the loop ends after as many steps as from `j` on
  have hearly : after next (i + (k - j)) a = some b := by
    rw [after_add, heq, hc, Option.bind_some, hend]
  have hlate : after next k a = none := by
    have hk : k = i + (k - j) + (j - i - 1 + 1) := by omega
    rw [hk, after_add, hearly, Option.bind_some, after, hb, Option.bind_none]
  rw [h] at hlate
  cases hlate

theorem le_card {s : Finset α} (hs : ∀ x y, next x = some y → x ∈ s) (h : after next k a = some b)
    (hb : next b = none) : k ≤ s.card := by
  have hstate : ∀ j < k, ∃ c ∈ s, after next j a = some c := by
    intro j hj
    obtain ⟨c, hc, hend⟩ := exists_after h hj.le
    obtain ⟨m, hm⟩ : ∃ m, k - j = m + 1 := ⟨k - j - 1, by omega⟩
    rw [hm, after] at hend
    obtain ⟨d, hd, -⟩ := Option.bind_eq_some_iff.mp hend
    exact ⟨c, hs c d hd, hc⟩
  rw [← Finset.card_range k]
  refine Finset.card_le_card_of_injOn (fun j => (after next j a).getD b) ?_ ?_
  · intro j hj
    obtain ⟨c, hc, hafter⟩ := hstate j (by simpa using hj)
    simpa [hafter] using hc
  · intro i hi j hj hij
    have hi : i < k := by simpa using hi
    have hj : j < k := by simpa using hj
    obtain ⟨c, -, hci⟩ := hstate i hi
    obtain ⟨d, -, hdj⟩ := hstate j hj
    have hsame : after next i a = after next j a := by
      have hcd : c = d := by simpa [hci, hdj] using hij
      rw [hci, hdj, hcd]
    rcases lt_trichotomy i j with hlt | heq | hlt
    · exact absurd hsame (after_injOn h hb hlt hj.le)
    · exact heq
    · exact absurd hsame.symm (after_injOn h hb hlt hi.le)

end Loop
